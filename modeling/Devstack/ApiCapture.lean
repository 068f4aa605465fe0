import Mathlib.Algebra.BigOperators.Group.List.Basic
import Devstack.Lib.Interleaving

/-! # API capture — the events of a proxy and the log they end in

    `CaptureResponseStream`, `CaptureLogWriter::write` and the task of
    `spawn_capture_log_writer`, of `src/services/api_capture.rs`.  Everything that can
    send holds a clone of the writer's handle: the proxy's state, which handlers share,
    and the stream of a captured response.  Events go through a bounded queue to one
    task, which appends to the log; an event that finds the queue full is counted in
    `dropped` instead, and the task writes the count down when it next looks.

    Between `try_send` and `fetch_add`, between the swap of the counter and the write of
    the summary, and between the receipt of an event and its write, others may step.

    * `Inv.counted`: an event is accepted, or counted, or about to be counted, or in a
      summary that is about to be written or was;
    * `Inv.ordered`: what was accepted is what was written, what the task holds, and the
      queue, in this order;
    * `Inv.once`: a captured response has sent its event, or has a stream that will;
    * `capture_conserves`: so nothing is missing when the task has ended. -/

namespace DevstackApiCapture

open DevstackMachine DevstackInterleaving

/-! ## What is captured -/

/-- `CAPTURE_LOG_QUEUE`. -/
def captureLogQueue : Nat := 1024

/-- The largest `usize`. -/
def usizeMax : Nat := 2 ^ 64 - 1

structure CapturedBody where
  totalBytes : Nat
  captured : List UInt8
  limit : Nat
  deriving DecidableEq

/-- `CapturedBody::new`. -/
def CapturedBody.new (limit : Nat) : CapturedBody := ⟨0, [], limit⟩

/-- `CapturedBody::default`. -/
def CapturedBody.default : CapturedBody := ⟨0, [], 0⟩

/-- `CapturedBody::append`. -/
def CapturedBody.append (body : CapturedBody) (chunk : List UInt8) : CapturedBody :=
  { body with
    totalBytes := min (body.totalBytes + chunk.length) usizeMax
    captured := body.captured ++ chunk.take (body.limit - body.captured.length) }

structure CaptureApiRecord where
  method : String
  path : String
  target : String
  requestHeaders : List (String × String)
  requestBody : CapturedBody
  status : Nat
  responseHeaders : List (String × String)
  responseBody : CapturedBody
  durationMs : Nat
  deriving DecidableEq

/-- `CaptureLogEvent`; the value of an entry is its message. -/
inductive CaptureLogEvent where
  | entry (value : String)
  | api (record : CaptureApiRecord)
  deriving DecidableEq

/-- `CaptureResponseStream`, without the body it wraps and the handle it holds. -/
structure CaptureResponseStream where
  method : String
  path : String
  target : String
  requestHeaders : List (String × String)
  requestBody : CapturedBody
  status : Nat
  responseHeaders : List (String × String)
  responseBody : CapturedBody
  logged : Bool
  deriving DecidableEq

/-- `log_once`: the record to be sent, if none was. -/
def logOnce (durationMs : Nat) (response : CaptureResponseStream) :
    Option CaptureApiRecord × CaptureResponseStream :=
  if response.logged then (none, response)
  else
    (some ⟨response.method, response.path, response.target, response.requestHeaders,
        response.requestBody, response.status, response.responseHeaders, response.responseBody,
        durationMs⟩,
      { response with
        path := "", target := "", requestHeaders := [], responseHeaders := []
        responseBody := .default, logged := true })

/-- What a poll of the body gives. -/
inductive Polled where
  | chunk (bytes : List UInt8)
  | failed
  | ended
  | pending
  deriving DecidableEq

/-- `poll_next`. -/
def pollNext (durationMs : Nat) (response : CaptureResponseStream) :
    Polled → Option CaptureApiRecord × CaptureResponseStream
  | .chunk bytes => (none, { response with responseBody := response.responseBody.append bytes })
  | .failed | .ended => logOnce durationMs response
  | .pending => (none, response)

/-! ## Those who send -/

/-- The queue, the counter and the receiver's end.  `sent`, `accepted` and `responses`
    are kept for the statements: every call of `write`, with the number of the response
    it is for, the events the queue took, and how many responses were captured. -/
structure Channel where
  queue : List CaptureLogEvent
  dropped : Nat
  closed : Bool
  sent : List (Option Nat × CaptureLogEvent)
  accepted : List CaptureLogEvent
  responses : Nat

/-- What holds a clone of the handle: the proxy's state, the stream of a response. -/
inductive Handle where
  | state
  | stream (number : Nat) (response : CaptureResponseStream)

/-- A holder of the handle; one that found the queue full has yet to count the event,
    and is dropped after that if nothing is left of it. -/
inductive Holder where
  | holding (handle : Handle)
  | counting (after : Option Handle)

def holders (after : Option Handle) : List Holder := (after.map .holding).toList

/-- `CaptureLogWriter::write`, up to the counting of a dropped event. -/
def write (number : Option Nat) (event : CaptureLogEvent) (after : Option Handle) (c : Channel) :
    Channel × List Holder :=
  let c := { c with sent := c.sent ++ [(number, event)] }
  if c.closed then (c, holders after)
  else if c.queue.length < captureLogQueue then
    ({ c with queue := c.queue ++ [event], accepted := c.accepted ++ [event] }, holders after)
  else (c, [.counting after])

/-- A step of a holder.  The state is cloned for a handler, starts the stream of a
    captured response, sends the record of a captured upgrade or the entry of a failed
    request, or is dropped.  While a response is streamed the body of its request may
    grow; the stream is polled, also after its end, and dropped. -/
inductive HolderStep where
  | share
  | respond (response : CaptureResponseStream)
  | upgrade (record : CaptureApiRecord)
  | fail (value : String)
  | upload (chunk : List UInt8)
  | poll (polled : Polled) (durationMs : Nat)
  | drop (durationMs : Nat)
  | count

def holderStep : HolderStep → Channel → Holder → Channel × List Holder
  | .share, c, .holding .state => (c, [.holding .state, .holding .state])
  | .respond response, c, .holding .state =>
      ({ c with responses := c.responses + 1 },
        [.holding .state, .holding (.stream c.responses { response with logged := false })])
  | .upgrade record, c, .holding .state =>
      write (some c.responses) (.api record) (some .state) { c with responses := c.responses + 1 }
  | .fail value, c, .holding .state => write none (.entry value) (some .state) c
  | .upload chunk, c, .holding (.stream number response) =>
      (c, [.holding (.stream number
        { response with requestBody := response.requestBody.append chunk })])
  | .poll polled durationMs, c, .holding (.stream number response) =>
      match pollNext durationMs response polled with
      | (none, response) => (c, [.holding (.stream number response)])
      | (some record, response) =>
          write (some number) (.api record) (some (.stream number response)) c
  | .drop _, c, .holding .state => (c, [])
  | .drop durationMs, c, .holding (.stream number response) =>
      match logOnce durationMs response with
      | (none, _) => (c, [])
      | (some record, _) => write (some number) (.api record) none c
  | .count, c, .counting after => ({ c with dropped := c.dropped + 1 }, holders after)
  | _, c, holder => (c, [holder])

/-! ## The writer -/

/-- What the log gets: an event, or the summary of a number of dropped ones. -/
inductive LogRecord where
  | event (event : CaptureLogEvent)
  | dropped (droppedEvents : Nat)
  deriving DecidableEq

/-- What the task does after it has looked at the counter. -/
inductive After where
  | write (event : CaptureLogEvent)
  | select
  | finish
  deriving DecidableEq

/-- Where the task stands: in `select!`, before the swap of the counter, between the swap
    and the write of the summary, before the write of an event, at its end. -/
inductive Writer where
  | selecting
  | swapping (after : After)
  | summing (count : Nat) (after : After)
  | writing (event : CaptureLogEvent)
  | done
  deriving DecidableEq

/-- What the task goes on with: `recv` or the tick in `select!`, else its next step. -/
inductive WriterStep where
  | recv
  | tick
  | next

structure System where
  channel : Channel
  holders : List Holder
  writer : Writer
  file : List LogRecord

/-- After `write_dropped_summary`; at the end of the task the receiver is dropped. -/
def proceed (after : After) (s : System) : System :=
  match after with
  | .write event => { s with writer := .writing event }
  | .select => { s with writer := .selecting }
  | .finish => { s with writer := .done, channel := { s.channel with closed := true } }

def writerStep (a : WriterStep) (s : System) : System :=
  match s.writer, a with
  | .selecting, .recv =>
      match s.channel.queue with
      | event :: queue =>
          { s with
            channel := { s.channel with queue := queue }
            writer := .swapping (.write event) }
      -- `recv` gives `None` once every handle is dropped and the queue is empty.
      | [] => if s.holders.isEmpty then { s with writer := .swapping .finish } else s
  | .selecting, .tick => { s with writer := .swapping .select }
  | .swapping after, .next =>
      let count := s.channel.dropped
      let s := { s with channel := { s.channel with dropped := 0 } }
      if count = 0 then proceed after s else { s with writer := .summing count after }
  | .summing count after, .next => proceed after { s with file := s.file ++ [.dropped count] }
  | .writing event, .next => { s with writer := .selecting, file := s.file ++ [.event event] }
  | _, _ => s

inductive Action where
  | holder (position : Nat) (a : HolderStep)
  | writer (a : WriterStep)

def step (s : System) : Action → System
  | .holder position a =>
      let next := stepAt holderStep (s.channel, s.holders) (position, a)
      { s with channel := next.1, holders := next.2 }
  | .writer a => writerStep a s

/-- A proxy that has started: one handle, nothing sent. -/
def start : System := ⟨⟨[], 0, false, [], [], 0⟩, [.holding .state], .selecting, []⟩

/-! ## What the log says -/

def eventOf : LogRecord → Option CaptureLogEvent
  | .event event => some event
  | .dropped _ => none

def droppedEvents : LogRecord → Nat
  | .event _ => 0
  | .dropped count => count

/-- The events of a log, in its order. -/
def written (file : List LogRecord) : List CaptureLogEvent := file.filterMap eventOf

/-- The sum of the `dropped_events` of a log. -/
def recorded (file : List LogRecord) : Nat := (file.map droppedEvents).sum

/-- The events sent for a response. -/
def sentFor (number : Nat) (c : Channel) : List (Option Nat × CaptureLogEvent) :=
  c.sent.filter (fun e => e.1 = some number)

/-- What the claim asks of a log whose writer has finished. -/
structure Conserved (s : System) : Prop where
  total : (written s.file).length + recorded s.file = s.channel.sent.length
  once : ∀ number < s.channel.responses, (sentFor number s.channel).length = 1
  ordered : written s.file = s.channel.accepted

@[simp] theorem written_event (file : List LogRecord) (event : CaptureLogEvent) :
    written (file ++ [.event event]) = written file ++ [event] := by
  simp [written, eventOf]

@[simp] theorem written_dropped (file : List LogRecord) (count : Nat) :
    written (file ++ [.dropped count]) = written file := by
  simp [written, eventOf]

@[simp] theorem recorded_event (file : List LogRecord) (event : CaptureLogEvent) :
    recorded (file ++ [.event event]) = recorded file := by
  simp [recorded, droppedEvents]

@[simp] theorem recorded_dropped (file : List LogRecord) (count : Nat) :
    recorded (file ++ [.dropped count]) = recorded file + count := by
  simp [recorded, droppedEvents]

/-! ## Where an event can be -/

/-- Events that a holder is about to count. -/
def uncounted : Holder → Nat
  | .holding _ => 0
  | .counting _ => 1

/-- Events that a handle is yet to send for a response. -/
def unsentBy (number : Nat) : Handle → Nat
  | .state => 0
  | .stream own response => if own = number ∧ response.logged = false then 1 else 0

def unsent (number : Nat) : Holder → Nat
  | .holding handle => unsentBy number handle
  | .counting after => (after.map (unsentBy number)).getD 0

/-- A response of this number is one of the captured ones. -/
def captured (number responses : Nat) : Nat := if number < responses then 1 else 0

/-- The number a summary is about to be written with. -/
def summed : Writer → Nat
  | .summing count _ => count
  | _ => 0

def toWrite : After → List CaptureLogEvent
  | .write event => [event]
  | _ => []

/-- The event that the task holds. -/
def inFlight : Writer → List CaptureLogEvent
  | .swapping after | .summing _ after => toWrite after
  | .writing event => [event]
  | _ => []

/-- The task has seen the end of the queue. -/
def Ending : Writer → Prop
  | .swapping .finish | .summing _ .finish | .done => True
  | _ => False

/-- And it has emptied the counter for the last time. -/
def Emptied : Writer → Prop
  | .summing _ .finish | .done => True
  | _ => False

structure Inv (s : System) : Prop where
  counted : s.channel.sent.length
    = s.channel.accepted.length + s.channel.dropped + (s.holders.map uncounted).sum
      + summed s.writer + recorded s.file
  ordered : s.channel.accepted = written s.file ++ inFlight s.writer ++ s.channel.queue
  once : ∀ number, (sentFor number s.channel).length + (s.holders.map (unsent number)).sum
    = captured number s.channel.responses
  ended : Ending s.writer → s.holders = [] ∧ s.channel.queue = []
  emptied : Emptied s.writer → s.channel.dropped = 0
  closed : s.channel.closed = true → Ending s.writer

theorem inv_start : Inv start where
  counted := rfl
  ordered := rfl
  once := fun number => by simp [start, sentFor, unsent, unsentBy, captured]
  ended := fun h => h.elim
  emptied := fun h => h.elim
  closed := fun h => nomatch h

/-! ## A step of a holder -/

@[simp] theorem uncounted_holders (after : Option Handle) :
    ((holders after).map uncounted).sum = 0 := by
  cases after <;> rfl

@[simp] theorem unsent_holders (number : Nat) (after : Option Handle) :
    ((holders after).map (unsent number)).sum = unsent number (.counting after) := by
  cases after with
  | none => rfl
  | some handle => simp [holders, unsent]

/-- What a step of a holder does to the channel, in terms of what is yet to come from the
    holder and from what it becomes. -/
structure Moves (c : Channel) (holder : Holder) (next : Channel × List Holder) : Prop where
  counted : next.1.sent.length + c.accepted.length + c.dropped + uncounted holder
    = c.sent.length + next.1.accepted.length + next.1.dropped + (next.2.map uncounted).sum
  ordered : ∃ events, next.1.accepted = c.accepted ++ events ∧ next.1.queue = c.queue ++ events
  once : ∀ number, (sentFor number next.1).length + (next.2.map (unsent number)).sum
      + captured number c.responses
    = (sentFor number c).length + unsent number holder + captured number next.1.responses
  closed : next.1.closed = c.closed

theorem sentFor_append (number : Nat) (c : Channel) (e : Option Nat × CaptureLogEvent) :
    (sentFor number { c with sent := c.sent ++ [e] }).length
      = (sentFor number c).length + if e.1 = some number then 1 else 0 := by
  rw [sentFor, sentFor, List.filter_append, List.length_append, List.filter_singleton]
  by_cases h : e.1 = some number <;> simp [h]

/-- A call of `write` while the receiver is there: the event is taken, or is to be
    counted. -/
theorem write_cases {number : Option Nat} {event : CaptureLogEvent} {after : Option Handle}
    {c : Channel} (hopen : c.closed = false) :
    write number event after c
        = ({ c with
              sent := c.sent ++ [(number, event)]
              queue := c.queue ++ [event]
              accepted := c.accepted ++ [event] }, holders after)
      ∨ write number event after c
        = ({ c with sent := c.sent ++ [(number, event)] }, [.counting after]) := by
  rw [write]
  simp only [hopen, Bool.false_eq_true, if_false]
  split
  · exact Or.inl rfl
  · exact Or.inr rfl

/-- A call of `write` by a handle, for a response that it was yet to send for, or for one
    that is captured with the call. -/
theorem write_moves {number : Option Nat} {event : CaptureLogEvent} {after : Option Handle}
    {c : Channel} {handle : Handle} (responses : Nat) (hopen : c.closed = false)
    (hsends : ∀ n, unsentBy n handle + captured n c.responses
      = unsent n (.counting after) + (if number = some n then 1 else 0) + captured n responses) :
    Moves { c with responses } (.holding handle) (write number event after c) := by
  have hsent := fun n => sentFor_append n c (number, event)
  obtain h | h := @write_cases number event after c hopen
  · rw [h]
    refine ⟨?_, ⟨[event], rfl, rfl⟩, fun n => ?_, rfl⟩
    · simp only [uncounted, uncounted_holders, List.length_append, List.length_singleton]
      omega
    · have hn := hsends n
      have hsent := hsent n
      simp only [sentFor, unsent_holders, unsent] at hsent hn ⊢
      omega
  · rw [h]
    refine ⟨?_, ⟨[], (List.append_nil _).symm, (List.append_nil _).symm⟩, fun n => ?_, rfl⟩
    · simp only [uncounted, List.length_append, List.length_singleton, List.map_cons, List.map_nil,
        List.sum_cons, List.sum_nil]
      omega
    · have hn := hsends n
      have hsent := hsent n
      simp only [sentFor, List.map_cons, List.map_nil, List.sum_cons, List.sum_nil, unsent]
        at hsent hn ⊢
      omega

/-- A step that sends nothing and counts nothing. -/
theorem keeps_moves {c : Channel} {holder : Holder} {next : List Holder}
    (hcounted : uncounted holder = (next.map uncounted).sum)
    (honce : ∀ n, unsent n holder = (next.map (unsent n)).sum) : Moves c holder (c, next) where
  counted := by
    rw [hcounted]
  ordered := ⟨[], (List.append_nil _).symm, (List.append_nil _).symm⟩
  once := fun n => by rw [honce n]
  closed := rfl

/-- `log_once` sends for a response whose stream has not, and for no other. -/
theorem logOnce_cases (durationMs : Nat) (response : CaptureResponseStream) :
    response.logged = true ∧ logOnce durationMs response = (none, response)
      ∨ response.logged = false ∧ ∃ record response', response'.logged = true
        ∧ logOnce durationMs response = (some record, response') := by
  rw [logOnce]
  cases response.logged with
  | true => exact Or.inl ⟨rfl, rfl⟩
  | false => exact Or.inr ⟨rfl, _, _, rfl, rfl⟩

theorem pollNext_cases (durationMs : Nat) (response : CaptureResponseStream) (polled : Polled) :
    (∃ response', response'.logged = response.logged
        ∧ pollNext durationMs response polled = (none, response'))
      ∨ response.logged = false ∧ ∃ record response', response'.logged = true
        ∧ pollNext durationMs response polled = (some record, response') := by
  cases polled with
  | chunk bytes =>
      exact Or.inl ⟨{ response with responseBody := response.responseBody.append bytes }, rfl, rfl⟩
  | pending => exact Or.inl ⟨_, rfl, rfl⟩
  | failed | ended =>
      obtain ⟨-, hnone⟩ | hsome := logOnce_cases durationMs response
      · exact Or.inl ⟨response, rfl, hnone⟩
      · exact Or.inr hsome

/-- One more response is captured. -/
theorem captured_succ (n responses : Nat) :
    captured n (responses + 1) = captured n responses + if responses = n then 1 else 0 := by
  simp only [captured]
  split_ifs <;> omega

theorem holderStep_moves (a : HolderStep) (c : Channel) (holder : Holder)
    (hopen : c.closed = false) : Moves c holder (holderStep a c holder) := by
  cases holder with
  | holding handle =>
      cases handle with
      | state =>
          cases a with
          | respond response =>
              refine ⟨rfl, ⟨[], (List.append_nil _).symm, (List.append_nil _).symm⟩,
                fun n => ?_, rfl⟩
              have hsucc := captured_succ n c.responses
              simp only [holderStep, List.map_cons, List.map_nil, List.sum_cons, List.sum_nil,
                unsent, unsentBy, sentFor, and_true]
              omega
          | upgrade record =>
              refine write_moves (c := { c with responses := c.responses + 1 }) c.responses hopen
                fun n => ?_
              have hsucc := captured_succ n c.responses
              simp only [unsentBy, unsent, Option.map_some, Option.getD_some, Option.some.injEq]
              omega
          | fail value =>
              refine write_moves c.responses hopen fun n => ?_
              simp [unsentBy, unsent]
          | share | upload chunk | poll polled durationMs | drop durationMs | count =>
              exact keeps_moves rfl fun n => rfl
      | stream number response =>
          cases a with
          | upload chunk =>
              refine keeps_moves rfl fun n => ?_
              simp [unsent, unsentBy]
          | poll polled durationMs =>
              rw [holderStep]
              obtain ⟨response', hlogged, hpoll⟩ | ⟨hlogged, record, response', hlogged', hpoll⟩ :=
                pollNext_cases durationMs response polled
              · rw [hpoll]
                refine keeps_moves rfl fun n => ?_
                simp [unsent, unsentBy, hlogged]
              · rw [hpoll]
                refine write_moves c.responses hopen fun n => ?_
                simp [unsent, unsentBy, hlogged, hlogged']
          | drop durationMs =>
              rw [holderStep]
              obtain ⟨hlogged, hlog⟩ | ⟨hlogged, record, response', -, hlog⟩ :=
                logOnce_cases durationMs response
              · rw [hlog]
                refine keeps_moves rfl fun n => ?_
                simp [unsent, unsentBy, hlogged]
              · rw [hlog]
                refine write_moves c.responses hopen fun n => ?_
                simp [unsent, unsentBy, hlogged]
          | share | respond _ | upgrade _ | fail _ | count =>
              refine keeps_moves rfl fun n => ?_
              simp [unsent]
  | counting after =>
      cases a with
      | count =>
          refine ⟨?_, ⟨[], (List.append_nil _).symm, (List.append_nil _).symm⟩, fun n => ?_, rfl⟩
          · simp only [holderStep, uncounted, uncounted_holders]
            omega
          · simp only [holderStep, sentFor, unsent_holders]
      | share | respond _ | upgrade _ | fail _ | upload _ | poll _ _ | drop _ =>
          refine keeps_moves rfl fun n => ?_
          simp [unsent]

/-- A step of a holder keeps the invariant. -/
theorem inv_holder (position : Nat) (a : HolderStep) (s : System) (h : Inv s) :
    Inv (step s (.holder position a)) := by
  cases hholder : s.holders[position]? with
  | none =>
      have hstay : step s (.holder position a) = s := by
        rw [step, stepAt_none holderStep hholder]
      rw [hstay]
      exact h
  | some holder =>
      have hne : s.holders ≠ [] := fun hnil => by rw [hnil] at hholder; exact nomatch hholder
      have hopen : s.channel.closed = false := by
        cases hclosed : s.channel.closed with
        | false => rfl
        | true => exact absurd (h.ended (h.closed hclosed)).1 hne
      obtain ⟨hcounted, ⟨events, haccepted, hqueue⟩, honce, hclosed⟩ :=
        holderStep_moves a s.channel holder hopen
      have hsum := fun f => sum_stepAt holderStep f (s := (s.channel, s.holders))
        (a := (position, a)) hholder
      have hchannel : (step s (.holder position a)).channel
          = (holderStep a s.channel holder).1 := by
        rw [step, stepAt_some holderStep hholder]
      have hinv := h.counted
      refine ⟨?_, ?_, fun n => ?_, fun hending => absurd (h.ended hending).1 hne,
        fun hemptied => ?_, fun hclosed' => ?_⟩
      · have hsum := hsum uncounted
        rw [hchannel]
        simp only [step] at hsum ⊢
        omega
      · rw [hchannel, haccepted, hqueue, h.ordered, ← List.append_assoc]
        rfl
      · have hsum := hsum (unsent n)
        have hn := h.once n
        have honce := honce n
        rw [hchannel]
        simp only [step] at hsum ⊢
        omega
      · have hending : Ending s.writer := by
          revert hemptied
          simp only [step]
          cases s.writer with
          | summing count after => cases after <;> exact id
          | done => exact id
          | _ => exact False.elim
        exact absurd (h.ended hending).1 hne
      · rw [hchannel, hclosed, hopen] at hclosed'
        exact nomatch hclosed'

/-! ## A step of the writer -/

/-- After the counter was looked at: the number that was in it is in a summary, or is
    nothing, and the task goes on. -/
theorem inv_proceed {after : After} {s : System} (h : Inv { s with writer := .summing 0 after }) :
    Inv (proceed after s) := by
  obtain ⟨hcounted, hordered, honce, hended, hemptied, hclosed⟩ := h
  cases after with
  | write event =>
      exact ⟨hcounted, hordered, honce, fun h => h.elim, fun h => h.elim, fun h => (hclosed h).elim⟩
  | select =>
      exact ⟨hcounted, hordered, honce, fun h => h.elim, fun h => h.elim, fun h => (hclosed h).elim⟩
  | finish =>
      exact ⟨hcounted, hordered, honce, fun _ => hended trivial, fun _ => hemptied trivial,
        fun _ => trivial⟩

/-- A step of the writer keeps the invariant. -/
theorem inv_writer (a : WriterStep) (s : System) (h : Inv s) : Inv (writerStep a s) := by
  obtain ⟨⟨queue, dropped, closed, sent, accepted, responses⟩, handles, writer, file⟩ := s
  obtain ⟨hcounted, hordered, honce, hended, hemptied, hclosed⟩ := h
  cases writer with
  | selecting =>
      have hnot : closed ≠ true := fun h => (hclosed h).elim
      cases a with
      | recv =>
          cases queue with
          | cons event queue =>
              refine ⟨hcounted, ?_, honce, fun h => h.elim, fun h => h.elim, fun h => (hnot h).elim⟩
              simp only [inFlight, List.append_nil] at hordered
              simp only [writerStep, inFlight, toWrite, List.append_assoc, List.singleton_append]
              exact hordered
          | nil =>
              simp only [writerStep]
              split
              · next hnil =>
                  exact ⟨hcounted, hordered, honce, fun _ => ⟨List.isEmpty_iff.mp hnil, rfl⟩,
                    fun h => h.elim, fun h => (hnot h).elim⟩
              · exact ⟨hcounted, hordered, honce, hended, hemptied, hclosed⟩
      | tick =>
          exact ⟨hcounted, hordered, honce, fun h => h.elim, fun h => h.elim,
            fun h => (hnot h).elim⟩
      | next => exact ⟨hcounted, hordered, honce, hended, hemptied, hclosed⟩
  | swapping after =>
      cases a with
      | recv | tick => exact ⟨hcounted, hordered, honce, hended, hemptied, hclosed⟩
      | next =>
          have hafter : Ending (.summing dropped after) → Ending (.swapping after) := by
            cases after <;> exact id
          have hsummed : Inv ⟨⟨queue, 0, closed, sent, accepted, responses⟩, handles,
              .summing dropped after, file⟩ := by
            refine ⟨?_, hordered, honce, fun h => hended (hafter h), fun _ => rfl, fun h => ?_⟩
            · simp only [summed] at hcounted ⊢
              omega
            · have hending := hclosed h
              cases after <;> exact hending
          simp only [writerStep]
          split
          · next hzero =>
              subst hzero
              exact inv_proceed hsummed
          · exact hsummed
  | summing count after =>
      cases a with
      | recv | tick => exact ⟨hcounted, hordered, honce, hended, hemptied, hclosed⟩
      | next =>
          have hending : Ending (.summing 0 after) ↔ Ending (.summing count after) := by
            cases after <;> exact Iff.rfl
          refine inv_proceed ⟨?_, ?_, honce, fun h => hended (hending.mp h), fun h => ?_,
            fun h => hending.mpr (hclosed h)⟩
          · simp only [summed, recorded_dropped] at hcounted ⊢
            omega
          · rw [written_dropped]
            exact hordered
          · refine hemptied ?_
            cases after <;> exact h
  | writing event =>
      have hnot : closed ≠ true := fun h => (hclosed h).elim
      cases a with
      | recv | tick => exact ⟨hcounted, hordered, honce, hended, hemptied, hclosed⟩
      | next =>
          refine ⟨?_, ?_, honce, fun h => h.elim, fun h => h.elim, fun h => (hnot h).elim⟩
          · simp only [writerStep, recorded_event]
            exact hcounted
          · simp only [writerStep, written_event, inFlight, List.append_nil]
            exact hordered
  | done =>
      have hstay : writerStep a
          ⟨⟨queue, dropped, closed, sent, accepted, responses⟩, handles, .done, file⟩
          = ⟨⟨queue, dropped, closed, sent, accepted, responses⟩, handles, .done, file⟩ := by
        cases a <;> rfl
      rw [hstay]
      exact ⟨hcounted, hordered, honce, hended, hemptied, hclosed⟩

theorem inv_step (s : System) (a : Action) (h : Inv s) : Inv (step s a) := by
  cases a with
  | holder position a => exact inv_holder position a s h
  | writer a => exact inv_writer a s h

/-! ## The log of a proxy that has ended -/

/-- **NOTHING SENT IS MISSING.**  When the task has ended every handle is dropped, and the
    log accounts for every event: written once, in the order of the queue, or in the sum
    of the summaries; and every captured response has sent one. -/
theorem capture_conserves (as : List Action) (hdone : (run step start as).writer = .done) :
    (run step start as).holders = [] ∧ Conserved (run step start as) := by
  have hinv : Inv (run step start as) := run_invariant step inv_step as start inv_start
  generalize run step start as = s at hdone hinv
  obtain ⟨hcounted, hordered, honce, hended, hemptied, -⟩ := hinv
  rw [hdone] at hcounted hordered hended hemptied
  obtain ⟨hholders, hqueue⟩ := hended trivial
  have hdropped := hemptied trivial
  have hwritten : written s.file = s.channel.accepted := by
    rw [hordered, hqueue]
    simp [inFlight]
  refine ⟨hholders, ?_, fun number hnumber => ?_, hwritten⟩
  · rw [hholders] at hcounted
    simp only [List.map_nil, List.sum_nil, summed, hdropped] at hcounted
    rw [hwritten]
    omega
  · have hn := honce number
    rw [hholders, captured, if_pos hnumber] at hn
    simpa using hn

/-! ## A queue that is full -/

/-- Requests that fail while there is room in the queue. -/
theorem fails_fill (value : String) {s : System} (hholders : s.holders = [.holding .state])
    (hopen : s.channel.closed = false) (n : Nat)
    (hroom : s.channel.queue.length + n ≤ captureLogQueue) :
    ∃ sent accepted, run step s (List.replicate n (.holder 0 (.fail value)))
      = { s with channel := { s.channel with
            queue := s.channel.queue ++ List.replicate n (.entry value), sent, accepted } } := by
  induction n generalizing s with
  | zero => exact ⟨s.channel.sent, s.channel.accepted, by simp⟩
  | succ n ih =>
      have hlt : s.channel.queue.length < captureLogQueue := by omega
      have hstep : step s (.holder 0 (.fail value)) = { s with channel := { s.channel with
          queue := s.channel.queue ++ [.entry value]
          sent := s.channel.sent ++ [(none, .entry value)]
          accepted := s.channel.accepted ++ [.entry value] } } := by
        obtain ⟨channel, holders, writer, file⟩ := s
        dsimp only at hholders hopen hlt
        subst hholders
        simp [step, stepAt, holderStep, write, hopen, hlt, holders]
      rw [List.replicate_succ, run_cons, hstep]
      obtain ⟨sent, accepted, hrun⟩ := @ih { s with channel := { s.channel with
          queue := s.channel.queue ++ [.entry value]
          sent := s.channel.sent ++ [(none, .entry value)]
          accepted := s.channel.accepted ++ [.entry value] } } hholders hopen
        (by rw [List.length_append, List.length_singleton]; omega)
      exact ⟨sent, accepted, by rw [hrun, List.replicate_succ]; simp⟩

/-- The turns in which the task takes an event and writes it. -/
def writeOne : List Action := [.writer .recv, .writer .next, .writer .next, .writer .next]

/-- With as many turns the task writes the whole queue, and what was counted before. -/
theorem writer_drains (queue : List CaptureLogEvent) {s : System} (hwriter : s.writer = .selecting)
    (hqueue : s.channel.queue = queue) :
    ∃ dropped file, run step s (List.replicate queue.length writeOne).flatten
        = { s with channel := { s.channel with queue := [], dropped }, file }
      ∧ written file = written s.file ++ queue
      ∧ recorded file + dropped = recorded s.file + s.channel.dropped := by
  induction queue generalizing s with
  | nil =>
      obtain ⟨⟨_, count, closed, sent, accepted, responses⟩, holders, writer, file⟩ := s
      dsimp only at hqueue
      subst hqueue
      exact ⟨count, file, rfl, by simp, rfl⟩
  | cons event queue ih =>
      obtain ⟨⟨_, count, closed, sent, accepted, responses⟩, holders, writer, file⟩ := s
      dsimp only at hwriter hqueue
      subst hwriter hqueue
      rw [List.length_cons, List.replicate_succ, List.flatten_cons, run_append]
      by_cases hcount : count = 0
      · obtain ⟨dropped, file', hrun, hwritten, hrecorded⟩ :=
          @ih ⟨⟨queue, 0, closed, sent, accepted, responses⟩, holders, .selecting,
            file ++ [.event event]⟩ rfl rfl
        refine ⟨dropped, file', ?_, ?_, ?_⟩
        · simpa [writeOne, step, writerStep, proceed, hcount] using hrun
        · simpa using hwritten
        · simpa [hcount] using hrecorded
      · obtain ⟨dropped, file', hrun, hwritten, hrecorded⟩ :=
          @ih ⟨⟨queue, 0, closed, sent, accepted, responses⟩, holders, .selecting,
            file ++ [.dropped count] ++ [.event event]⟩ rfl rfl
        rw [written_event, written_dropped] at hwritten
        rw [recorded_event, recorded_dropped] at hrecorded
        refine ⟨dropped, file', ?_, ?_, hrecorded⟩
        · simpa [writeOne, step, writerStep, proceed, hcount] using hrun
        · simpa using hwritten

/-- When every handle is dropped, the task writes what was counted and ends. -/
theorem writer_ends {s : System} (hwriter : s.writer = .selecting) (hqueue : s.channel.queue = [])
    (hholders : s.holders = []) :
    let s' := run step s [.writer .recv, .writer .next, .writer .next]
    s'.writer = .done ∧ recorded s'.file = recorded s.file + s.channel.dropped := by
  obtain ⟨⟨_, count, closed, sent, accepted, responses⟩, holders, writer, file⟩ := s
  dsimp only at hwriter hqueue hholders
  subst hwriter hqueue hholders
  by_cases hcount : count = 0
  · simp [step, writerStep, proceed, hcount]
  · simp [step, writerStep, proceed, hcount]

/-- A response, streamed to its end and dropped. -/
def streamed : List Action :=
  [.holder 0 (.respond ⟨"GET", "/a", "/a", [], .new 16, 200, [], .new 16, false⟩),
    .holder 1 (.poll .ended 2), .holder 1 (.drop 3)]

/-- Then requests fail until one finds the queue full and is counted, the state is dropped, and
    the task writes until the queue is closed. -/
def overfull : List Action :=
  streamed ++ List.replicate 1023 (.holder 0 (.fail "refused"))
    ++ [.holder 0 (.fail "refused"), .holder 0 .count, .holder 0 (.drop 4)]
    ++ (List.replicate 1024 writeOne).flatten ++ [.writer .recv, .writer .next, .writer .next]

theorem capture_conserves_overfull :
    recorded (run step start overfull).file = 1
      ∧ (run step start overfull).holders = [] ∧ Conserved (run step start overfull) := by
  have hended : recorded (run step start overfull).file = 1
      ∧ (run step start overfull).writer = .done := by
    obtain ⟨sent, accepted, hfull⟩ := @fails_fill "refused" (run step start streamed) rfl rfl 1023
      (by decide)
    have hsplit : run step start overfull = run step (run step (run step
        ⟨⟨(run step start streamed).channel.queue ++ List.replicate 1023 (.entry "refused"), 0, false,
          sent, accepted, 1⟩, [.holding .state], .selecting, []⟩
        [.holder 0 (.fail "refused"), .holder 0 .count, .holder 0 (.drop 4)])
        (List.replicate 1024 writeOne).flatten) [.writer .recv, .writer .next, .writer .next] := by
      rw [overfull, run_append, run_append, run_append, run_append, hfull]
      rfl
    rw [hsplit]
    generalize hqueue : (run step start streamed).channel.queue
      ++ List.replicate 1023 (.entry "refused") = queue
    have hlength : queue.length = 1024 := by
      rw [← hqueue, List.length_append, List.length_replicate]
      rfl
    -- the last request finds the queue full
    have hcounted : run step ⟨⟨queue, 0, false, sent, accepted, 1⟩, [.holding .state], .selecting, []⟩
          [.holder 0 (.fail "refused"), .holder 0 .count, .holder 0 (.drop 4)]
        = ⟨⟨queue, 1, false, sent ++ [(none, .entry "refused")], accepted, 1⟩, [], .selecting, []⟩ := by
      simp [step, stepAt, holderStep, write, hlength, captureLogQueue, holders]
    obtain ⟨dropped, file, hdrained, -, hrecorded⟩ := @writer_drains queue
      ⟨⟨queue, 1, false, sent ++ [(none, .entry "refused")], accepted, 1⟩, [], .selecting, []⟩ rfl rfl
    rw [hlength] at hdrained
    rw [hcounted, hdrained]
    obtain ⟨hdone, htotal⟩ := @writer_ends
      ⟨⟨[], dropped, false, sent ++ [(none, .entry "refused")], accepted, 1⟩, [], .selecting, file⟩
      rfl rfl rfl
    exact ⟨htotal.trans hrecorded, hdone⟩
  exact ⟨hended.1, capture_conserves overfull hended.2⟩

end DevstackApiCapture
