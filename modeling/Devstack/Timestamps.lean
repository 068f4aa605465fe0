import Mathlib.Data.Prod.Lex
import Devstack.Lib.PrintedOrder
import Devstack.TaskHistory
import Devstack.Daemon.ActiveRuns

/-! # Timestamps — the latest by its text

    `format_rfc3339` of `src/util.rs` prints the instants by which
    `find_latest_active_run_for_project` and `find_latest_run_for_project_stack` of
    `src/app/runtime.rs` choose a run, and `latest_by_task` of
    `src/services/tasks/history.rs` an execution.  They compare the texts.

    The digits after the second are printed without their trailing zeros, and 'Z' is
    greater than any digit and than the point.  `text_lt_iff`: an earlier instant has
    the greater text if the two are in one second and its digits begin those of the
    later one (`ReadsLater`), a whole second before any part of it among them.  The
    choice is the latest unless that happens to the latest (`latest_chosen_iff`). -/

namespace DevstackTimestamps

open DevstackPrintedOrder DevstackModel DevstackTaskHistory DevstackWorld DevstackTasks
open DevstackActiveRuns

-- ── util.rs ───────────────────────────────────────────────────────────────────

/-- The days before the year, counted from the year 0. -/
def daysBefore (year : ℕ) : ℕ :=
  365 * year + (year + 3) / 4 - (year + 99) / 100 + (year + 399) / 400

def isLeap (year : ℕ) : Bool := year % 4 == 0 && (year % 100 != 0 || year % 400 == 0)

/-- The days of a year before its month, the months counted from 0. -/
def daysBeforeMonth (leap : Bool) (month : ℕ) : ℕ :=
  [0, 31, 59, 90, 120, 151, 181, 212, 243, 273, 304, 334].getD month 365
    + if leap && decide (2 ≤ month) then 1 else 0

def yearOf (day : ℕ) : ℕ := intervalOf daysBefore (day / 365) day

def monthOf (leap : Bool) (dayOfYear : ℕ) : ℕ := intervalOf (daysBeforeMonth leap) 11 dayOfYear

/-- The days after the first of a month. -/
def dayOfMonth (leap : Bool) (dayOfYear : ℕ) : ℕ :=
  dayOfYear - daysBeforeMonth leap (monthOf leap dayOfYear)

/-- The time of a day, in seconds. -/
def timeText (seconds : ℕ) : List Char :=
  pad 2 (seconds / 3600) ++ ':' :: (pad 2 (seconds % 3600 / 60) ++ ':' :: pad 2 (seconds % 3600 % 60))

def dayOfYearText (leap : Bool) (dayOfYear seconds : ℕ) : List Char :=
  pad 2 (monthOf leap dayOfYear + 1) ++ '-' ::
    (pad 2 (dayOfMonth leap dayOfYear + 1) ++ 'T' :: timeText seconds)

def dateText (day seconds : ℕ) : List Char :=
  pad 4 (yearOf day) ++ '-' ::
    dayOfYearText (isLeap (yearOf day)) (day - daysBefore (yearOf day)) seconds

/-- Date and time, in seconds since the year 0. -/
def dateTime (seconds : ℕ) : List Char := dateText (seconds / 86400) (seconds % 86400)

/-- The digits below the second, without those at the end that are zero. -/
def digits (nanosecond : ℕ) : List Char := trim '0' (pad 9 nanosecond)

def fraction (nanosecond : ℕ) : List Char :=
  if nanosecond = 0 then [] else '.' :: digits nanosecond

/-- The text of an instant, in nanoseconds since the year 0. -/
def rfc3339 (nanos : ℕ) : List Char :=
  dateTime (nanos / 10 ^ 9) ++ (fraction (nanos % 10 ^ 9) ++ ['Z'])

/-- The Unix epoch, in nanoseconds since the year 0. -/
def epoch : ℕ := 719528 * 86400 * 10 ^ 9

/-- The end of the year 9999. -/
def endOfYears : ℕ := 3652425 * 86400 * 10 ^ 9

/-- The instants of the years 0 to 9999, in nanoseconds since the Unix epoch: those that
    the format has a text for. -/
def Printable (ts : Int) : Prop := 0 ≤ ts + epoch ∧ ts + epoch < endOfYears

instance (ts : Int) : Decidable (Printable ts) := inferInstanceAs (Decidable (_ ∧ _))

def sinceYearZero (ts : Int) : ℕ := (ts + epoch).toNat

/-- `format_rfc3339` of a system time, in nanoseconds since the Unix epoch. -/
def formatRfc3339 (ts : Int) : String :=
  if Printable ts then String.ofList (rfc3339 (sinceYearZero ts)) else "1970-01-01T00:00:00Z"

/-- An instant that a timestamp is produced at. -/
abbrev Instant := {ts : Int // Printable ts}

/-- `now_rfc3339` at an instant. -/
def nowRfc3339 (now : Instant) : String := formatRfc3339 now.1

-- ── the text of a date ────────────────────────────────────────────────────────

theorem daysBefore_zero : daysBefore 0 = 0 := rfl

theorem daysBeforeMonth_zero (leap : Bool) : daysBeforeMonth leap 0 = 0 := by
  cases leap <;> rfl

theorem daysBefore_succ (year : ℕ) :
    daysBefore (year + 1) = daysBefore year + if isLeap year then 366 else 365 := by
  have h4 : (year + 1 + 3) / 4 = (year + 3) / 4 + if year % 4 = 0 then 1 else 0 := by
    split <;> omega
  have h100 : (year + 1 + 99) / 100 = (year + 99) / 100 + if year % 100 = 0 then 1 else 0 := by
    split <;> omega
  have h400 : (year + 1 + 399) / 400 = (year + 399) / 400 + if year % 400 = 0 then 1 else 0 := by
    split <;> omega
  have hle : (year + 99) / 100 ≤ 365 * year := by omega
  have hleap : (if isLeap year then 366 else 365)
      = 365 + (if year % 4 = 0 then 1 else 0) + (if year % 400 = 0 then 1 else 0)
        - if year % 100 = 0 then 1 else 0 := by
    simp only [isLeap, Bool.and_eq_true, Bool.or_eq_true, beq_iff_eq, bne_iff_ne]
    clear h4 h100 h400 hle
    by_cases hfour : year % 4 = 0
    · by_cases hhundred : year % 100 = 0
      · by_cases hfourhundred : year % 400 = 0 <;> simp [hfour, hhundred, hfourhundred]
      · have hfourhundred : year % 400 ≠ 0 := by omega
        simp [hfour, hhundred, hfourhundred]
    · have hhundred : year % 100 ≠ 0 := by omega
      have hfourhundred : year % 400 ≠ 0 := by omega
      simp [hfour, hhundred, hfourhundred]
  rw [daysBefore, daysBefore, h4, h100, h400, hleap]
  split <;> split <;> split <;> omega

theorem lt_daysBefore_succ (day : ℕ) : day < daysBefore (day / 365 + 1) := by
  unfold daysBefore
  omega

theorem yearOf_lt {day : ℕ} (hday : day < 3652425) : yearOf day < 10 ^ 4 := by
  refine lt_of_not_ge fun hle => ?_
  have hstart : daysBefore (yearOf day) ≤ day := start_intervalOf_le daysBefore_zero ..
  unfold daysBefore at hstart
  omega

/-- A day of a year is one of its 365, or of its 366 if it is a leap year. -/
theorem dayOfYear_lt (day : ℕ) :
    day - daysBefore (yearOf day) < if isLeap (yearOf day) then 366 else 365 := by
  have hnext : day < daysBefore (yearOf day + 1) := lt_start_succ (lt_daysBefore_succ day)
  have hstart : daysBefore (yearOf day) ≤ day := start_intervalOf_le daysBefore_zero ..
  rw [daysBefore_succ] at hnext
  split at hnext
  · rw [if_pos ‹_›]
    omega
  · rw [if_neg ‹_›]
    omega

theorem monthOf_le (leap : Bool) (dayOfYear : ℕ) : monthOf leap dayOfYear ≤ 11 :=
  intervalOf_le ..

theorem monthOf_lt (leap : Bool) (dayOfYear : ℕ) : monthOf leap dayOfYear + 1 < 10 ^ 2 :=
  lt_of_le_of_lt (Nat.succ_le_succ (monthOf_le leap dayOfYear)) (by decide)

theorem dayOfMonth_lt {leap : Bool} {dayOfYear : ℕ}
    (h : dayOfYear < if leap then 366 else 365) : dayOfMonth leap dayOfYear + 1 < 10 ^ 2 := by
  have hend : dayOfYear < daysBeforeMonth leap (11 + 1) := by
    cases leap <;> exact h
  have hnext : dayOfYear < daysBeforeMonth leap (monthOf leap dayOfYear + 1) := lt_start_succ hend
  have hlength : ∀ m : Fin 12, daysBeforeMonth leap (m.1 + 1) ≤ daysBeforeMonth leap m.1 + 31 := by
    cases leap <;> decide
  have hshort := hlength ⟨monthOf leap dayOfYear, Nat.lt_succ_of_le (monthOf_le leap dayOfYear)⟩
  rw [dayOfMonth]
  simp only at hshort
  omega

@[simp] theorem length_timeText (seconds : ℕ) : (timeText seconds).length = 8 := by
  simp [timeText]

@[simp] theorem length_dateTime (seconds : ℕ) : (dateTime seconds).length = 19 := by
  simp [dateTime, dateText, dayOfYearText]

theorem timeText_lt_iff {a b : ℕ} (ha : a < 86400) (hb : b < 86400) :
    timeText a < timeText b ↔ a < b := by
  rw [timeText, timeText, field_lt_iff _ _ _ (by omega) (by omega),
    field_lt_iff _ _ _ (by omega) (by omega), pad_lt_iff (by omega) (by omega),
    ← lt_iff_div_mod, ← lt_iff_div_mod]

theorem dayOfYearText_lt_iff {leap : Bool} {day day' seconds seconds' : ℕ}
    (hday : day < if leap then 366 else 365) (hday' : day' < if leap then 366 else 365)
    (hs : seconds < 86400) (hs' : seconds' < 86400) :
    dayOfYearText leap day seconds < dayOfYearText leap day' seconds'
      ↔ day < day' ∨ day = day' ∧ seconds < seconds' := by
  have hlt : day < day' ↔ monthOf leap day < monthOf leap day'
      ∨ monthOf leap day = monthOf leap day' ∧ dayOfMonth leap day < dayOfMonth leap day' :=
    lt_iff_intervalOf (daysBeforeMonth_zero leap) (monotone_const (c := 11)) ..
  have heq : day = day' ↔ monthOf leap day = monthOf leap day'
      ∧ dayOfMonth leap day = dayOfMonth leap day' :=
    eq_iff_intervalOf (daysBeforeMonth_zero leap) (fun _ => 11) ..
  rw [dayOfYearText, dayOfYearText, field_lt_iff _ _ _ (monthOf_lt ..) (monthOf_lt ..),
    field_lt_iff _ _ _ (dayOfMonth_lt hday) (dayOfMonth_lt hday'), timeText_lt_iff hs hs', hlt,
    heq]
  omega

theorem dateText_lt_iff {day day' seconds seconds' : ℕ} (hday : day < 3652425)
    (hday' : day' < 3652425) (hs : seconds < 86400) (hs' : seconds' < 86400) :
    dateText day seconds < dateText day' seconds'
      ↔ day < day' ∨ day = day' ∧ seconds < seconds' := by
  have hmono : Monotone (fun day : ℕ => day / 365) := fun _ _ h => Nat.div_le_div_right h
  have hlt : day < day' ↔ yearOf day < yearOf day' ∨ yearOf day = yearOf day'
      ∧ day - daysBefore (yearOf day) < day' - daysBefore (yearOf day') :=
    lt_iff_intervalOf daysBefore_zero hmono ..
  have heq : day = day' ↔ yearOf day = yearOf day'
      ∧ day - daysBefore (yearOf day) = day' - daysBefore (yearOf day') :=
    eq_iff_intervalOf daysBefore_zero (fun day => day / 365) ..
  rw [dateText, dateText, field_lt_iff _ _ _ (yearOf_lt hday) (yearOf_lt hday'), hlt, heq]
  have hrest : yearOf day = yearOf day' →
      (dayOfYearText (isLeap (yearOf day)) (day - daysBefore (yearOf day)) seconds
          < dayOfYearText (isLeap (yearOf day')) (day' - daysBefore (yearOf day')) seconds'
        ↔ day - daysBefore (yearOf day) < day' - daysBefore (yearOf day')
          ∨ day - daysBefore (yearOf day) = day' - daysBefore (yearOf day')
            ∧ seconds < seconds') := by
    intro hyear
    have hlast := dayOfYear_lt day
    rw [hyear] at hlast ⊢
    exact dayOfYearText_lt_iff hlast (dayOfYear_lt day') hs hs'
  rw [and_congr_right hrest]
  simp only [and_or_left, or_assoc, and_assoc]

/-- Dates and times compare as the seconds do. -/
theorem dateTime_lt_iff {a b : ℕ} (ha : a < 3652425 * 86400) (hb : b < 3652425 * 86400) :
    dateTime a < dateTime b ↔ a < b := by
  rw [dateTime, dateTime, dateText_lt_iff (by omega) (by omega) (by omega) (by omega),
    ← lt_iff_div_mod]

theorem dateTime_inj {a b : ℕ} (ha : a < 3652425 * 86400) (hb : b < 3652425 * 86400)
    (h : dateTime a = dateTime b) : a = b := by
  rcases lt_trichotomy a b with hlt | heq | hlt
  · exact absurd ((dateTime_lt_iff ha hb).mpr hlt) (h ▸ lt_irrefl _)
  · exact heq
  · exact absurd ((dateTime_lt_iff hb ha).mpr hlt) (h ▸ lt_irrefl _)

-- ── the text below the second ─────────────────────────────────────────────────

theorem digits_range {n : ℕ} : ∀ d ∈ pad 9 n, '0' ≤ d ∧ d < 'Z' := fun d hd =>
  let ⟨hzero, hcolon⟩ := pad_range 9 n d hd
  ⟨hzero, lt_trans hcolon (by decide)⟩

theorem digits_zero : digits 0 = [] := by decide

theorem digits_lt_iff {c m : ℕ} (hc : c < 10 ^ 9) (hm : m < 10 ^ 9) (hlt : c < m) :
    digits m ++ ['Z'] < digits c ++ ['Z'] ↔ digits c <+: digits m :=
  trimmed_lt_iff digits_range (fun d hd => (digits_range d hd).2) (by simp)
    ((pad_lt_iff hc hm).mpr hlt)

/-- Below one second, the smaller part reads as the later exactly when its digits begin
    the other's. -/
theorem fraction_lt_iff {c m : ℕ} (hc : c < 10 ^ 9) (hm : m < 10 ^ 9) (hlt : c < m) :
    fraction m ++ ['Z'] < fraction c ++ ['Z'] ↔ digits c <+: digits m := by
  rw [fraction, if_neg (Nat.ne_of_gt (Nat.zero_lt_of_lt hlt)), fraction]
  by_cases hzero : c = 0
  · rw [if_pos hzero, hzero, digits_zero, List.cons_append, List.nil_append,
      List.cons_lt_cons_iff]
    exact ⟨fun _ => List.nil_prefix, fun _ => Or.inl (by decide)⟩
  · rw [if_neg hzero, List.cons_append, List.cons_append, List.cons_lt_cons_self,
      digits_lt_iff hc hm hlt]

theorem digits_of_fraction {c m : ℕ} (h : fraction c ++ ['Z'] = fraction m ++ ['Z']) :
    digits c = digits m := by
  have heq := List.append_cancel_right h
  rw [fraction, fraction] at heq
  by_cases hc : c = 0
  · by_cases hm : m = 0
    · rw [hc, hm]
    · rw [if_pos hc, if_neg hm] at heq
      exact nomatch heq
  · by_cases hm : m = 0
    · rw [if_neg hc, if_pos hm] at heq
      exact nomatch heq
    · rw [if_neg hc, if_neg hm, List.cons.injEq] at heq
      exact heq.2

-- ── the text of an instant ────────────────────────────────────────────────────

def second (t : Instant) : ℕ := sinceYearZero t.1 / 10 ^ 9

def nanosecond (t : Instant) : ℕ := sinceYearZero t.1 % 10 ^ 9

/-- The earlier instant is in the second of the later one, and its digits, which may be
    none, begin the digits of the later. -/
def ReadsLater (earlier later : Instant) : Prop :=
  second earlier = second later ∧ nanosecond earlier < nanosecond later
    ∧ digits (nanosecond earlier) <+: digits (nanosecond later)

instance (earlier later : Instant) : Decidable (ReadsLater earlier later) :=
  inferInstanceAs (Decidable (_ ∧ _ ∧ _))

theorem nowRfc3339_eq (t : Instant) :
    nowRfc3339 t
      = String.ofList (dateTime (second t) ++ (fraction (nanosecond t) ++ ['Z'])) := by
  rw [nowRfc3339, formatRfc3339, if_pos t.2]
  rfl

theorem second_lt (t : Instant) : second t < 3652425 * 86400 := by
  obtain ⟨ts, hfirst, hlast⟩ := t
  change (ts + epoch).toNat / 10 ^ 9 < _
  unfold endOfYears at hlast
  omega

theorem nanosecond_lt (t : Instant) : nanosecond t < 10 ^ 9 := Nat.mod_lt _ (by decide)

theorem instant_lt_iff (c m : Instant) :
    c < m ↔ second c < second m ∨ second c = second m ∧ nanosecond c < nanosecond m := by
  have hnanos : c < m ↔ sinceYearZero c.1 < sinceYearZero m.1 := by
    have hc := c.2.1
    have hm := m.2.1
    rw [← Subtype.coe_lt_coe, sinceYearZero, sinceYearZero]
    omega
  rw [hnanos, lt_iff_div_mod (10 ^ 9)]
  rfl

theorem lt_of_readsLater {c m : Instant} (h : ReadsLater c m) : c < m :=
  (instant_lt_iff c m).mpr (Or.inr ⟨h.1, h.2.1⟩)

/-- An earlier instant has the greater text exactly when it reads as the later. -/
theorem text_lt_iff {c m : Instant} (hle : c ≤ m) :
    nowRfc3339 m < nowRfc3339 c ↔ ReadsLater c m := by
  rcases hle.lt_or_eq with hlt | rfl
  · rw [nowRfc3339_eq, nowRfc3339_eq, String.lt_iff_toList_lt, String.toList_ofList,
      String.toList_ofList, append_lt_append_iff _ _ (by simp),
      dateTime_lt_iff (second_lt m) (second_lt c)]
    rcases (instant_lt_iff c m).mp hlt with hsecond | ⟨hsecond, hnano⟩
    · constructor
      · rintro (hgt | ⟨heq, -⟩)
        · exact absurd hgt (not_lt_of_gt hsecond)
        · exact absurd (dateTime_inj (second_lt m) (second_lt c) heq) hsecond.ne'
      · rintro ⟨heq, -⟩
        exact absurd heq hsecond.ne
    · rw [fraction_lt_iff (nanosecond_lt c) (nanosecond_lt m) hnano, hsecond]
      constructor
      · rintro (hgt | ⟨-, hprefix⟩)
        · exact absurd hgt (lt_irrefl _)
        · exact ⟨hsecond, hnano, hprefix⟩
      · rintro ⟨-, -, hprefix⟩
        exact Or.inr ⟨rfl, hprefix⟩
  · exact ⟨fun h => absurd h (lt_irrefl _), fun h => absurd (lt_of_readsLater h) (lt_irrefl _)⟩

theorem text_ne_of_lt {c m : Instant} (hlt : c < m) : nowRfc3339 c ≠ nowRfc3339 m := by
  intro heq
  have htext := heq
  rw [nowRfc3339_eq, nowRfc3339_eq, String.ofList_inj] at htext
  obtain ⟨hdate, hrest⟩ := List.append_inj htext (by simp)
  have hsecond := dateTime_inj (second_lt c) (second_lt m) hdate
  rcases (instant_lt_iff c m).mp hlt with hne | ⟨-, hnano⟩
  · exact hne.ne hsecond
  · have hlater : ReadsLater c m :=
      ⟨hsecond, hnano, by rw [digits_of_fraction hrest]⟩
    exact lt_irrefl _ (heq ▸ (text_lt_iff hlt.le).mpr hlater)

theorem text_injective : Function.Injective nowRfc3339 := by
  intro c m heq
  rcases lt_trichotomy c m with hlt | rfl | hlt
  · exact absurd heq (text_ne_of_lt hlt)
  · rfl
  · exact absurd heq.symm (text_ne_of_lt hlt)

-- ── app/runtime.rs ────────────────────────────────────────────────────────────

/-- The runs that `find_latest_active_run_for_project` chooses from. -/
def projectCandidates (canonical : String → String) (w : World) (projectDir : String) :
    List (String × RunRecord) :=
  w.runs.toList.filter (fun kv =>
    sameProjectDir canonical kv.2.projectDir projectDir
      && decide (kv.2.state ≠ .stopped) && kv.2.stoppedAt.isNone)

/-- `find_latest_active_run_for_project`: the first run with the greatest creation time. -/
def findLatestActiveRunForProject (canonical : String → String) (w : World)
    (projectDir : String) : Option String :=
  ((projectCandidates canonical w projectDir).foldl laterRun none).map (·.2)

/-- Of the runs of a list, created when `made` says, none reads later than the latest. -/
def RunsInOrder (made : String → Instant) (runs : List (String × RunRecord)) : Prop :=
  ∀ m ∈ runs, (∀ c ∈ runs, made c.1 ≤ made m.1) → ∀ c ∈ runs, ¬ ReadsLater (made c.1) (made m.1)

theorem latestRun_iff {made : String → Instant} {runs : List (String × RunRecord)}
    (hkeyed : ∀ kv ∈ runs, kv.2.runId = kv.1)
    (hmade : ∀ kv ∈ runs, kv.2.createdAt = nowRfc3339 (made kv.1)) :
    (∀ id, (runs.foldl laterRun none).map (·.2) = some id → ∀ c ∈ runs, made c.1 ≤ made id)
      ↔ RunsInOrder made runs := by
  cases hlatest : (runs.foldl laterRun none).map (·.2) with
  | none =>
      rw [eq_nil_of_no_latest hlatest]
      exact ⟨fun _ m hm => absurd hm List.not_mem_nil, fun _ id hid => nomatch hid⟩
  | some id =>
      obtain ⟨chosen, hmem, hid, hgreatest⟩ := exists_of_latest hlatest
      have hchosen : made id = made chosen.1 := by rw [← hid, hkeyed chosen hmem]
      have htext : ∀ c ∈ runs, nowRfc3339 (made c.1) ≤ nowRfc3339 (made chosen.1) := by
        intro c hc
        rw [← hmade c hc, ← hmade chosen hmem]
        exact hgreatest c hc
      have hiff := latest_iff (fun kv : String × RunRecord => made kv.1) text_injective
        hmem htext
      constructor
      · intro h m hm hmax c hc hlater
        refine hiff.mp ?_ m hm hmax c hc ((text_lt_iff (hmax c hc)).mpr hlater)
        exact fun c hc => hchosen ▸ h id rfl c hc
      · rintro h _ ⟨⟩ c hc
        rw [hchosen]
        refine hiff.mpr ?_ c hc
        intro m hm hmax c hc hlt
        exact h m hm hmax c hc ((text_lt_iff (hmax c hc)).mp hlt)

-- ── services/tasks/history.rs ─────────────────────────────────────────────────

/-- A turn of `latest_by_task`. -/
def latestTurn (latest : BTreeMap TaskExecution) (execution : TaskExecution) :
    BTreeMap TaskExecution :=
  match latest[execution.task]? with
  | none => latest.insert execution.task execution
  | some current =>
      if current.finishedAt < execution.finishedAt
          ∨ execution.finishedAt = current.finishedAt ∧ current.startedAt ≤ execution.startedAt then
        latest.insert execution.task execution
      else latest

/-- `latest_by_task`. -/
def latestByTask (executions : List TaskExecution) : BTreeMap TaskExecution :=
  executions.foldl latestTurn ∅

/-- The executions of a task. -/
def executionsOf (task : String) (executions : List TaskExecution) : List TaskExecution :=
  executions.filter (fun e => decide (e.task = task))

/-- What `latest_by_task` compares: the end first, then the start. -/
def texts (e : TaskExecution) : String ×ₗ String := toLex (e.finishedAt, e.startedAt)

theorem texts_le_iff (e e' : TaskExecution) :
    texts e ≤ texts e' ↔ e.finishedAt < e'.finishedAt
      ∨ e'.finishedAt = e.finishedAt ∧ e.startedAt ≤ e'.startedAt := by
  rw [texts, texts, Prod.Lex.toLex_le_toLex, eq_comm (a := e.finishedAt)]

/-- A turn looks at the entry of its own task. -/
theorem latestTurn_get (latest : BTreeMap TaskExecution) (e : TaskExecution) (task : String) :
    (latestTurn latest e)[task]?
      = if e.task = task then
          match latest[task]? with
          | none => some e
          | some current => if texts current ≤ texts e then some e else some current
        else latest[task]? := by
  rw [latestTurn]
  by_cases htask : e.task = task
  · subst htask
    rw [if_pos rfl]
    cases hget : latest[e.task]? with
    | none => exact Std.ExtTreeMap.getElem?_insert_self
    | some current =>
        simp only [← texts_le_iff]
        split
        · exact Std.ExtTreeMap.getElem?_insert_self
        · exact hget
  · have hother : (latest.insert e.task e)[task]? = latest[task]? := by
      rw [Std.ExtTreeMap.getElem?_insert, if_neg (fun h => htask (compare_eq_iff_eq.mp h))]
    rw [if_neg htask]
    split
    · exact hother
    · split
      · exact hother
      · rfl

theorem executionsOf_append (task : String) (executions : List TaskExecution)
    (e : TaskExecution) :
    executionsOf task (executions ++ [e])
      = executionsOf task executions ++ if e.task = task then [e] else [] := by
  rw [executionsOf, List.filter_append, executionsOf]
  by_cases htask : e.task = task
  · rw [if_pos htask, List.filter_cons_of_pos (by simp [htask]), List.filter_nil]
  · rw [if_neg htask, List.filter_cons_of_neg (by simp [htask]), List.filter_nil]

/-- The entry of a task is one of its executions, and none of them has greater texts. -/
theorem latestByTask_get (executions : List TaskExecution) (task : String) :
    match (latestByTask executions)[task]? with
    | none => executionsOf task executions = []
    | some e => e ∈ executionsOf task executions
        ∧ ∀ c ∈ executionsOf task executions, texts c ≤ texts e := by
  induction executions using List.reverseRecOn with
  | nil =>
      rw [latestByTask, List.foldl_nil, Std.ExtTreeMap.getElem?_empty]
      rfl
  | append_singleton executions e ih =>
      rw [latestByTask, List.foldl_append, ← latestByTask, List.foldl_cons, List.foldl_nil,
        latestTurn_get, executionsOf_append]
      by_cases htask : e.task = task
      · rw [if_pos htask, if_pos htask]
        cases hget : (latestByTask executions)[task]? with
        | none =>
            simp only [hget] at ih
            simp [ih]
        | some current =>
            simp only [hget] at ih
            obtain ⟨hmem, hgreatest⟩ := ih
            by_cases hle : texts current ≤ texts e
            · simp only [hle, if_true]
              refine ⟨by simp, ?_⟩
              intro c hc
              rcases List.mem_append.mp hc with hc | hc
              · exact (hgreatest c hc).trans hle
              · rw [List.mem_singleton.mp hc]
            · simp only [hle, if_false]
              refine ⟨List.mem_append_left _ hmem, ?_⟩
              intro c hc
              rcases List.mem_append.mp hc with hc | hc
              · exact hgreatest c hc
              · rw [List.mem_singleton.mp hc]
                exact (lt_of_not_ge hle).le
      · rw [if_neg htask, if_neg htask, List.append_nil]
        exact ih

/-- When an execution ended, then when it began. -/
def times (started finished : TaskExecution → Instant) (e : TaskExecution) :
    Instant ×ₗ Instant := toLex (finished e, started e)

/-- Of the executions of a list none ended, or ended with the latest and began, at a time
    that reads later than the latest one's. -/
def ExecutionsInOrder (started finished : TaskExecution → Instant)
    (executions : List TaskExecution) : Prop :=
  ∀ m ∈ executions, (∀ c ∈ executions, times started finished c ≤ times started finished m) →
    ∀ c ∈ executions, ¬ ReadsLater (finished c) (finished m)
      ∧ (finished c = finished m → ¬ ReadsLater (started c) (started m))

/-- The texts of an end and a start. -/
def pairText (t : Instant ×ₗ Instant) : String ×ₗ String :=
  toLex (nowRfc3339 (ofLex t).1, nowRfc3339 (ofLex t).2)

theorem pairText_injective : Function.Injective pairText := by
  intro t t' heq
  obtain ⟨hfirst, hsecond⟩ := Prod.mk.inj (toLex.injective heq)
  exact ofLex.injective (Prod.ext (text_injective hfirst) (text_injective hsecond))

/-- An earlier pair has the greater texts if its end reads later, or its start with one
    end. -/
theorem pairText_lt_iff {c m : Instant ×ₗ Instant} (hle : c ≤ m) :
    pairText m < pairText c ↔ ReadsLater (ofLex c).1 (ofLex m).1
      ∨ (ofLex c).1 = (ofLex m).1 ∧ ReadsLater (ofLex c).2 (ofLex m).2 := by
  rw [pairText, pairText, Prod.Lex.toLex_lt_toLex, text_injective.eq_iff,
    eq_comm (a := (ofLex m).1)]
  rcases Prod.Lex.le_iff.mp hle with hlt | ⟨heq, hsecond⟩
  · rw [text_lt_iff hlt.le]
    simp [hlt.ne]
  · rw [text_lt_iff heq.le, text_lt_iff hsecond]

theorem latestExecution_iff {started finished : TaskExecution → Instant}
    {executions : List TaskExecution}
    (htimes : ∀ e ∈ executions, e.startedAt = nowRfc3339 (started e)
      ∧ e.finishedAt = nowRfc3339 (finished e)) (task : String) :
    (∀ e, (latestByTask executions)[task]? = some e → ∀ c ∈ executionsOf task executions,
        times started finished c ≤ times started finished e)
      ↔ ExecutionsInOrder started finished (executionsOf task executions) := by
  have hget := latestByTask_get executions task
  have htexts : ∀ e ∈ executionsOf task executions,
      texts e = pairText (times started finished e) := by
    intro e he
    obtain ⟨hstarted, hfinished⟩ := htimes e (List.mem_of_mem_filter he)
    rw [texts, hstarted, hfinished]
    rfl
  cases hlatest : (latestByTask executions)[task]? with
  | none =>
      simp only [hlatest] at hget
      rw [hget]
      exact ⟨fun _ m hm => absurd hm List.not_mem_nil, fun _ e he => nomatch he⟩
  | some chosen =>
      simp only [hlatest] at hget
      obtain ⟨hmem, hgreatest⟩ := hget
      have hiff := latest_iff (times started finished) pairText_injective hmem (by
        intro c hc
        rw [← htexts c hc, ← htexts chosen hmem]
        exact hgreatest c hc)
      constructor
      · intro h m hm hmax c hc
        have hnot := hiff.mp (h chosen rfl) m hm hmax c hc
        rw [pairText_lt_iff (hmax c hc), not_or, not_and] at hnot
        exact hnot
      · rintro h _ ⟨⟩ c hc
        refine hiff.mpr ?_ c hc
        intro m hm hmax c hc
        rw [pairText_lt_iff (hmax c hc), not_or, not_and]
        exact h m hm hmax c hc

-- ── the latest ────────────────────────────────────────────────────────────────

/-- What is chosen is the latest exactly when the latest reads as the latest: for the run
    of a project, for the run of a stack, and for the execution of a task. -/
theorem latest_chosen_iff (canonical : String → String) (w : World) (made : String → Instant)
    (hkeyed : ∀ (id : String) (run : RunRecord), w.runs[id]? = some run → run.runId = id)
    (hmade : ∀ (id : String) (run : RunRecord), w.runs[id]? = some run →
      run.createdAt = nowRfc3339 (made id))
    (executions : List TaskExecution) (started finished : TaskExecution → Instant)
    (htimes : ∀ e ∈ executions, e.startedAt = nowRfc3339 (started e)
      ∧ e.finishedAt = nowRfc3339 (finished e)) :
    (∀ projectDir,
      (∀ id, findLatestActiveRunForProject canonical w projectDir = some id →
        ∀ c ∈ projectCandidates canonical w projectDir, made c.1 ≤ made id)
        ↔ RunsInOrder made (projectCandidates canonical w projectDir))
    ∧ (∀ projectDir stack,
      (∀ id, findLatestRunForProjectStack canonical w projectDir stack = some id →
        ∀ c ∈ candidates canonical w projectDir stack, made c.1 ≤ made id)
        ↔ RunsInOrder made (candidates canonical w projectDir stack))
    ∧ ∀ task,
      (∀ e, (latestByTask executions)[task]? = some e →
        ∀ c ∈ executionsOf task executions, times started finished c ≤ times started finished e)
        ↔ ExecutionsInOrder started finished (executionsOf task executions) := by
  have hrun : ∀ (p : String × RunRecord → Bool), ∀ kv ∈ w.runs.toList.filter p,
      w.runs[kv.1]? = some kv.2 := fun p kv hkv =>
    Std.ExtTreeMap.mem_toList_iff_getElem?_eq_some.mp (List.mem_of_mem_filter hkv)
  refine ⟨fun projectDir => ?_, fun projectDir stack => ?_, latestExecution_iff htimes⟩
  · exact latestRun_iff (fun kv hkv => hkeyed kv.1 kv.2 (hrun _ kv hkv))
      (fun kv hkv => hmade kv.1 kv.2 (hrun _ kv hkv))
  · rw [findLatest_eq]
    exact latestRun_iff (fun kv hkv => hkeyed kv.1 kv.2 (hrun _ kv hkv))
      (fun kv hkv => hmade kv.1 kv.2 (hrun _ kv hkv))

def newYear : Instant := ⟨1767225600000000000, by decide⟩

def halfSecondLater : Instant := ⟨1767225600500000000, by decide⟩

/-- A build that began with the year and ended at an instant. -/
def build (finished : Instant) : TaskExecution where
  task := "build"
  startedAt := nowRfc3339 newYear
  finishedAt := nowRfc3339 finished
  exitCode := 0
  durationMs := 0
  logFile := "build.log"
  scope := "adhoc"

def aSecondLater : Instant := ⟨1767225601000000000, by decide⟩

/-- When the runs of `/app` were made. -/
def madeAt (id : String) : Instant := if id = "run-1" then newYear else aSecondLater

def runOfApp (id : String) : RunRecord :=
  RunRecord.new id "dev" "/app" "/app" ∅ (nowRfc3339 (madeAt id))

def twoRuns : World :=
  { DevstackSystem.start.1 with
    runs := ((∅ : BTreeMap RunRecord).insert "run-1" (runOfApp "run-1")).insert "run-2"
      (runOfApp "run-2") }

theorem twoRuns_get {id : String} {run : RunRecord} (h : twoRuns.runs[id]? = some run) :
    run = runOfApp id := by
  rw [twoRuns, Std.ExtTreeMap.getElem?_insert, Std.ExtTreeMap.getElem?_insert] at h
  split at h
  · next heq => rw [← Option.some.inj h, compare_eq_iff_eq.mp heq]
  · split at h
    · next heq => rw [← Option.some.inj h, compare_eq_iff_eq.mp heq]
    · rw [Std.ExtTreeMap.getElem?_empty] at h
      cases h

def twoBuilds : List TaskExecution := [build newYear, build aSecondLater]

def endedAt (e : TaskExecution) : Instant :=
  if e.finishedAt = nowRfc3339 newYear then newYear else aSecondLater

/-- Of two runs and of two builds that are a second apart the later is the latest. -/
theorem latest_chosen_iff_two :
    findLatestActiveRunForProject id twoRuns "/app" = some "run-2"
      ∧ (∀ c ∈ projectCandidates id twoRuns "/app", madeAt c.1 ≤ madeAt "run-2")
      ∧ findLatestRunForProjectStack id twoRuns "/app" "dev" = some "run-2"
      ∧ (∀ c ∈ candidates id twoRuns "/app" "dev", madeAt c.1 ≤ madeAt "run-2")
      ∧ (latestByTask twoBuilds)["build"]? = some (build aSecondLater)
      ∧ ∀ c ∈ executionsOf "build" twoBuilds,
          times (fun _ => newYear) endedAt c
            ≤ times (fun _ => newYear) endedAt (build aSecondLater) := by
  obtain ⟨hproject, hstack, htask⟩ := latest_chosen_iff id twoRuns madeAt
    (fun _ _ h => by rw [twoRuns_get h]; rfl) (fun _ _ h => by rw [twoRuns_get h]; rfl)
    twoBuilds (fun _ => newYear) endedAt (by decide +kernel)
  have hfound : findLatestActiveRunForProject id twoRuns "/app" = some "run-2" := by
    decide +kernel
  have hfound' : findLatestRunForProjectStack id twoRuns "/app" "dev" = some "run-2" := by
    decide +kernel
  have hlatest : (latestByTask twoBuilds)["build"]? = some (build aSecondLater) := by
    decide +kernel
  refine ⟨hfound, (hproject "/app").mpr ?_ _ hfound, hfound',
    (hstack "/app" "dev").mpr ?_ _ hfound', hlatest, (htask "build").mpr ?_ _ hlatest⟩
  · rw [RunsInOrder]
    decide +kernel
  · rw [RunsInOrder]
    decide +kernel
  · rw [ExecutionsInOrder]
    decide +kernel

/-- Of a build that ended on the second and one that ended half a second later, the one
    that ended on the second is the latest. -/
theorem whole_second_chosen :
    nowRfc3339 newYear = "2026-01-01T00:00:00Z"
      ∧ nowRfc3339 halfSecondLater = "2026-01-01T00:00:00.5Z"
      ∧ newYear < halfSecondLater
      ∧ (latestByTask [build newYear, build halfSecondLater])["build"]?
          = some (build newYear) := by
  have hnewYear : nowRfc3339 newYear = "2026-01-01T00:00:00Z" := by decide +kernel
  have hhalf : nowRfc3339 halfSecondLater = "2026-01-01T00:00:00.5Z" := by decide +kernel
  have hnot : ¬ texts (build newYear) ≤ texts (build halfSecondLater) := by
    rw [texts_le_iff, build, build, hnewYear, hhalf]
    decide
  refine ⟨hnewYear, hhalf, by decide, ?_⟩
  rw [latestByTask, List.foldl_cons, List.foldl_cons, List.foldl_nil, latestTurn_get,
    if_pos (show (build halfSecondLater).task = "build" from rfl), latestTurn_get,
    if_pos (show (build newYear).task = "build" from rfl), Std.ExtTreeMap.getElem?_empty]
  exact if_neg hnot

end DevstackTimestamps
