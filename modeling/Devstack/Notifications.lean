import Devstack.Lib.Throttle
import Devstack.LogLevels

/-! # Notifications — what auto-share tells the agent, and how often

    The second half of `src/agent/auto_share.rs`: the lines of a poll that are at the
    level of the monitor make a message for the agent, at most one for a service within
    `AUTO_SHARE_RATE_LIMIT`.  A poll that is limited leaves the time of the last message
    alone.  Instants are milliseconds of a clock that does not go back. -/

namespace DevstackNotifications

open DevstackModel DevstackThrottle DevstackLogLine DevstackLogLevels

/-- `AUTO_SHARE_RATE_LIMIT`, in milliseconds. -/
def autoShareRateLimit : ℕ := 30000

/-- What the monitor was started for. -/
structure AutoShareConfig where
  level : AutoShareLevel
  runId : String
  services : List String

/-- `level_text` of the two texts below. -/
def levelText : AutoShareLevel → String
  | .error => "error"
  | .warn => "warn"

/-- The command the agent is told to run. -/
def buildLogsCommand (runId service : String) (level : AutoShareLevel) : String :=
  "devstack logs --run " ++ runId ++ " --service " ++ service ++ " --level " ++ levelText level
    ++ " --since 5m --last 200"

/-- The text of a message. -/
def buildAutoShareMessage (runId service : String) (level : AutoShareLevel) : String :=
  "[devstack auto-share] Detected new " ++ levelText level ++ " logs for " ++ service
    ++ ". Investigate with:\n" ++ buildLogsCommand runId service level

/-- Whether a service may have a message now; if so, its time is taken. -/
def shouldEmitAutoShare (lastSent : BTreeMap ℕ) (service : String) (now : ℕ) : BTreeMap ℕ × Bool :=
  match lastSent[service]? with
  | some previous =>
      if now - previous < autoShareRateLimit then (lastSent, false)
      else (lastSent.insert service now, true)
  | none => (lastSent.insert service now, true)

variable (tools : LineTools)

/-- Other services, and lines below the level, leave the times alone. -/
def buildAutoShareNotification (config : AutoShareConfig) (service : String) (lines : List String)
    (lastSent : BTreeMap ℕ) (now : ℕ) : BTreeMap ℕ × Option String :=
  if service ∈ config.services then
    match detectTriggerLevel tools service lines config.level with
    | none => (lastSent, none)
    | some level =>
        let emit := shouldEmitAutoShare lastSent service now
        (emit.1, if emit.2 then some (buildAutoShareMessage config.runId service level) else none)
  else (lastSent, none)

/-- A poll of a service that was answered, and when. -/
structure Poll where
  service : String
  lines : List String
  now : ℕ

/-- A message, with the poll that made it. -/
structure Notice where
  poll : Poll
  message : String

/-- The messages that `run_auto_share_monitor` sends, each with the poll it is for. -/
def notices (config : AutoShareConfig) : BTreeMap ℕ → List Poll → List Notice
  | _, [] => []
  | lastSent, poll :: polls =>
      let built := buildAutoShareNotification tools config poll.service poll.lines lastSent poll.now
      match built.2 with
      | some message => ⟨poll, message⟩ :: notices config built.1 polls
      | none => notices config built.1 polls

/-- The level at which a poll of a watched service triggers. -/
def triggered (config : AutoShareConfig) (poll : Poll) : Option AutoShareLevel :=
  if poll.service ∈ config.services then
    detectTriggerLevel tools poll.service poll.lines config.level
  else none

/-- A poll as a call of the limiter. -/
def Poll.call (poll : Poll) : String × ℕ := (poll.service, poll.now)

section Notices

variable {tools} {config : AutoShareConfig}

/-- The map is a rate limiter with a key for each service. -/
theorem shouldEmitAutoShare_emits (lastSent : BTreeMap ℕ) (service : String) (now : ℕ) :
    (shouldEmitAutoShare lastSent service now).2
        = admits autoShareRateLimit (fun k => lastSent[k]?) service now
      ∧ (shouldEmitAutoShare lastSent service now).1
        = if admits autoShareRateLimit (fun k => lastSent[k]?) service now then
            lastSent.insert service now else lastSent := by
  rw [shouldEmitAutoShare, admits]
  cases lastSent[service]? with
  | none => exact ⟨rfl, rfl⟩
  | some previous =>
      by_cases hlimited : now - previous < autoShareRateLimit
      · simp [hlimited]
      · simp [hlimited]

/-- A stored time is an update of the limiter. -/
theorem lookup_insert (lastSent : BTreeMap ℕ) (service : String) (now : ℕ) :
    (fun k => (lastSent.insert service now)[k]?)
      = Function.update (fun k => lastSent[k]?) service (some now) := by
  ext1 k
  rw [Std.ExtTreeMap.getElem?_insert]
  by_cases heq : k = service
  · subst heq
    rw [Function.update_self, if_pos (by simp)]
  · rw [Function.update_of_ne heq, if_neg (by simpa using Ne.symm heq)]

/-- A triggered poll makes a message if the limiter admits it. -/
theorem build_triggered {poll : Poll} {level : AutoShareLevel}
    (htriggered : triggered tools config poll = some level) (lastSent : BTreeMap ℕ) :
    buildAutoShareNotification tools config poll.service poll.lines lastSent poll.now
      = if admits autoShareRateLimit (fun k => lastSent[k]?) poll.service poll.now then
          (lastSent.insert poll.service poll.now,
            some (buildAutoShareMessage config.runId poll.service level))
        else (lastSent, none) := by
  obtain ⟨hemits, hsent⟩ := shouldEmitAutoShare_emits lastSent poll.service poll.now
  rw [triggered] at htriggered
  split at htriggered
  next hwatched =>
    simp only [buildAutoShareNotification, if_pos hwatched, htriggered, hemits, hsent]
    split <;> rfl
  next => cases htriggered

/-- A poll without a trigger makes none. -/
theorem build_quiet {poll : Poll} (htriggered : triggered tools config poll = none)
    (lastSent : BTreeMap ℕ) :
    buildAutoShareNotification tools config poll.service poll.lines lastSent poll.now
      = (lastSent, none) := by
  rw [triggered] at htriggered
  rw [buildAutoShareNotification]
  split at htriggered
  next hwatched => rw [if_pos hwatched, htriggered]
  next hwatched => rw [if_neg hwatched]

/-- The monitor sends for the polls that a throttle of the triggering ones admits. -/
theorem calls_notices (lastSent : BTreeMap ℕ) (polls : List Poll) :
    (notices tools config lastSent polls).map (·.poll.call)
      = admitted autoShareRateLimit (fun k => lastSent[k]?)
          ((polls.filter (fun poll => (triggered tools config poll).isSome)).map Poll.call) := by
  induction polls generalizing lastSent with
  | nil => rfl
  | cons poll polls ih =>
      rw [notices, List.filter_cons]
      cases htriggered : triggered tools config poll with
      | none =>
        simp only [build_quiet htriggered, ih, Option.isSome_none, Bool.false_eq_true, if_false]
      | some level =>
          simp only [build_triggered htriggered, Option.isSome_some, if_true, List.map_cons,
            admitted]
          show _ = if admits _ _ poll.service poll.now then _ else _
          by_cases hadmits : admits autoShareRateLimit (fun k => lastSent[k]?) poll.service poll.now
          · rw [if_pos hadmits, if_pos hadmits]
            show poll.call :: _ = _
            rw [ih, lookup_insert]
            rfl
          · rw [if_neg hadmits, if_neg hadmits]
            exact ih lastSent

/-- A message is for a poll that triggers, and names its level. -/
theorem mem_notices {lastSent : BTreeMap ℕ} {polls : List Poll} {notice : Notice}
    (h : notice ∈ notices tools config lastSent polls) :
    notice.poll ∈ polls ∧ ∃ level, triggered tools config notice.poll = some level
      ∧ notice.message = buildAutoShareMessage config.runId notice.poll.service level := by
  induction polls generalizing lastSent with
  | nil => cases h
  | cons poll polls ih =>
      rw [notices] at h
      cases htriggered : triggered tools config poll with
      | none =>
          rw [build_quiet htriggered] at h
          obtain ⟨hmem, hlevel⟩ := ih h
          exact ⟨List.mem_cons_of_mem poll hmem, hlevel⟩
      | some level =>
          rw [build_triggered htriggered] at h
          by_cases hadmits : admits autoShareRateLimit (fun k => lastSent[k]?) poll.service poll.now
          · rw [if_pos hadmits] at h
            rcases List.mem_cons.mp h with rfl | h
            · exact ⟨List.mem_cons_self, level, htriggered, rfl⟩
            · obtain ⟨hmem, hlevel⟩ := ih h
              exact ⟨List.mem_cons_of_mem poll hmem, hlevel⟩
          · rw [if_neg hadmits] at h
            obtain ⟨hmem, hlevel⟩ := ih h
            exact ⟨List.mem_cons_of_mem poll hmem, hlevel⟩

end Notices

-- ── the rate limit ────────────────────────────────────────────────────────────

/-- Over any sequence of polls: two messages about one service are at least the limit apart,
    every poll of a watched service whose lines trigger has a message about its service
    within the limit before it, and every message is about a poll that triggers and names
    the level of its lines. -/
theorem notices_limited (config : AutoShareConfig) (polls : List Poll)
    (hclock : polls.Pairwise (fun a b => a.now ≤ b.now)) :
    let sent := notices tools config ∅ polls
    sent.Pairwise (fun a b => b.poll.service = a.poll.service →
        a.poll.now + autoShareRateLimit ≤ b.poll.now)
      ∧ (∀ poll ∈ polls, (triggered tools config poll).isSome →
        ∃ n ∈ sent, n.poll.service = poll.service ∧ n.poll.now ≤ poll.now
          ∧ poll.now < n.poll.now + autoShareRateLimit)
      ∧ ∀ n ∈ sent, n.poll ∈ polls ∧ ∃ level, triggered tools config n.poll = some level
        ∧ n.message = buildAutoShareMessage config.runId n.poll.service level := by
  have htime : InTime
      ((polls.filter (fun poll => (triggered tools config poll).isSome)).map Poll.call) :=
    (hclock.filter _).map Poll.call (fun a b h => h)
  have hcalls : (notices tools config ∅ polls).map (·.poll.call) = _ := calls_notices ∅ polls
  refine ⟨?_, fun poll hpoll htriggered => ?_, fun n hn => mem_notices hn⟩
  · have hspaced := spaced autoShareRateLimit (fun k => (∅ : BTreeMap ℕ)[k]?) htime
    rw [← hcalls] at hspaced
    exact List.pairwise_map.mp hspaced
  · have hmem : poll.call
        ∈ (polls.filter (fun poll => (triggered tools config poll).isSome)).map Poll.call :=
      List.mem_map_of_mem (List.mem_filter.mpr ⟨hpoll, htriggered⟩)
    rcases covered (by decide : 0 < autoShareRateLimit) (fun k => (∅ : BTreeMap ℕ)[k]?) htime
      poll.call hmem with ⟨previous, hprevious, -⟩ | ⟨c, hc, hservice, hle, hlt⟩
    · rw [Std.ExtTreeMap.getElem?_empty] at hprevious
      cases hprevious
    · rw [← hcalls] at hc
      obtain ⟨n, hn, rfl⟩ := List.mem_map.mp hc
      exact ⟨n, hn, hservice, hle, hlt⟩

/-- Three polls of a service, the second within the limit of the first. -/
def threePolls : List Poll :=
  [⟨"api", ["level=error boom"], 0⟩, ⟨"api", ["level=error boom"], 10000⟩,
    ⟨"api", ["level=error boom"], 31000⟩]

theorem notices_limited_api :
    let config : AutoShareConfig := ⟨.error, "run-1", ["api"]⟩
    let sent := notices noteTools config ∅ threePolls
    sent.Pairwise (fun a b => b.poll.service = a.poll.service →
        a.poll.now + autoShareRateLimit ≤ b.poll.now)
      ∧ (∀ poll ∈ threePolls, (triggered noteTools config poll).isSome →
        ∃ n ∈ sent, n.poll.service = poll.service ∧ n.poll.now ≤ poll.now
          ∧ poll.now < n.poll.now + autoShareRateLimit)
      ∧ ∀ n ∈ sent, n.poll ∈ threePolls ∧ ∃ level, triggered noteTools config n.poll = some level
        ∧ n.message = buildAutoShareMessage config.runId n.poll.service level :=
  notices_limited noteTools ⟨.error, "run-1", ["api"]⟩ threePolls (by simp [threePolls])

end DevstackNotifications
