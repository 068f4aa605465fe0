import Devstack.FacetCache
import Devstack.Lib.TopN

/-! # Evicting to a size — a number of documents and a cutoff

    `evict_to_size` of `src/infra/logs/index/eviction.rs`.  The sizes give the number of
    documents to remove, the reader the timestamp of the last of so many oldest ones, and
    then everything that is not later is deleted.  Between these steps ingest batches and
    deletions of runs commit, and the reader reloads.

    * `deletes_oldest`: what is kept is never older than what is deleted;
    * `exact_iff`: as many documents are deleted as were to be removed exactly if so many
      are not later than the cutoff when it is applied. -/

namespace DevstackSizeEviction

open DevstackMachine DevstackTopN
open DevstackIngest (PendingDoc)
open DevstackFacetCache (Change)

-- ── eviction.rs ───────────────────────────────────────────────────────────────

/-- The size of the index, the limit, and `(total_docs as f64 * ratio) as usize`. -/
structure Sizes where
  current : Nat
  maxBytes : Nat
  targetDocs : Nat → Nat

/-- The number of documents to remove. -/
def docsToRemove (sizes : Sizes) (totalDocs : Nat) : Nat :=
  if sizes.current ≤ sizes.maxBytes then 0 else totalDocs - sizes.targetDocs totalDocs

/-- What the reader shows when the documents are counted and when they are searched, and
    what is committed when they are deleted. -/
structure Moments where
  counted : List PendingDoc
  shown : List PendingDoc
  docs : List PendingDoc

/-- What an eviction does, and the number it returns. -/
structure Eviction where
  deleted : List PendingDoc
  kept : List PendingDoc
  returned : Nat

/-- The moments and what was done are kept for the statements. -/
inductive Stage where
  | called
  | cutting (docsToRemove : Nat) (counted : List PendingDoc)
  | deleting (docsToRemove : Nat) (cutoff : Int) (counted shown : List PendingDoc)
  | reloading (moments : Moments) (eviction : Eviction)
  | returned (moments : Moments) (eviction : Eviction)

structure State where
  /-- What was committed last. -/
  docs : List PendingDoc
  /-- What the reader shows. -/
  reader : List PendingDoc
  stage : Stage

/-- `return Ok(0)`. -/
def State.leave (s : State) (counted : List PendingDoc) : State :=
  { s with stage := .returned ⟨counted, s.reader, s.docs⟩ ⟨[], s.docs, 0⟩ }

variable (sizes : Sizes)

/-- `evict_to_size`, from one moment at which it looks at the index to the next. -/
def evictStep (s : State) : State :=
  match s.stage with
  | .called =>
      if sizes.current ≤ sizes.maxBytes then s.leave s.reader
      else
        let totalDocs := s.reader.length
        if totalDocs = 0 then s.leave s.reader
        else
          let docsToRemove := totalDocs - sizes.targetDocs totalDocs
          if docsToRemove = 0 then s.leave s.reader
          else { s with stage := .cutting docsToRemove s.reader }
  | .cutting docsToRemove counted =>
      -- the largest timestamp of a top-N search in ascending order
      match cut docsToRemove (s.reader.map (·.tsNanos)) with
      | none => s.leave counted
      | some cutoff => { s with stage := .deleting docsToRemove cutoff counted s.reader }
  | .deleting docsToRemove cutoff counted shown =>
      let deleted := s.docs.filter (fun d => decide (d.tsNanos ≤ cutoff))
      let kept := s.docs.filter (fun d => !decide (d.tsNanos ≤ cutoff))
      { s with
        docs := kept
        stage := .reloading ⟨counted, shown, s.docs⟩ ⟨deleted, kept, docsToRemove⟩ }
  | .reloading moments eviction => { s with reader := s.docs, stage := .returned moments eviction }
  | .returned _ _ => s

inductive Action where
  /-- The commit of an ingest batch or of `delete_run`. -/
  | commit (change : Change)
  | reload
  /-- The next step of the eviction. -/
  | evict

def step (s : State) : Action → State
  | .commit change => { s with docs := change.commit s.docs }
  | .reload => { s with reader := s.docs }
  | .evict => evictStep sizes s

-- ── what is asked of it ───────────────────────────────────────────────────────

/-- Only the oldest documents are deleted, no more than were to be removed, and as many as
    are returned. -/
structure Exact (moments : Moments) (eviction : Eviction) : Prop where
  parts : (eviction.deleted ++ eviction.kept).Perm moments.docs
  oldest : ∀ d ∈ eviction.deleted, ∀ k ∈ eviction.kept, d.tsNanos ≤ k.tsNanos
  atMost : eviction.deleted.length ≤ docsToRemove sizes moments.counted.length
  returned : eviction.returned = eviction.deleted.length

/-- What comes of the moments of an eviction. -/
def evictToSize (moments : Moments) : Eviction :=
  let docsToRemove := docsToRemove sizes moments.counted.length
  match cut docsToRemove (moments.shown.map (·.tsNanos)) with
  | none => ⟨[], moments.docs, 0⟩
  | some cutoff =>
      ⟨moments.docs.filter (fun d => decide (d.tsNanos ≤ cutoff)),
        moments.docs.filter (fun d => !decide (d.tsNanos ≤ cutoff)), docsToRemove⟩

/-- **ONLY THE OLDEST**: this part always holds. -/
theorem deletes_oldest (moments : Moments) :
    ∀ d ∈ (evictToSize sizes moments).deleted, ∀ k ∈ (evictToSize sizes moments).kept,
      d.tsNanos < k.tsNanos := by
  rw [evictToSize]
  split
  · exact fun d hd => nomatch hd
  · intro d hd k hk
    have hle := of_decide_eq_true (List.mem_filter.mp hd).2
    have hlt := (List.mem_filter.mp hk).2
    rw [Bool.not_eq_true', decide_eq_false_iff_not] at hlt
    omega

theorem exact_evictToSize_iff (moments : Moments) :
    Exact sizes moments (evictToSize sizes moments)
      ↔ ∀ cutoff, IsCut (docsToRemove sizes moments.counted.length)
          (moments.shown.map (·.tsNanos)) cutoff →
        moments.docs.countP (fun d => decide (d.tsNanos ≤ cutoff))
          = docsToRemove sizes moments.counted.length := by
  have holdest := deletes_oldest sizes moments
  rw [evictToSize] at holdest ⊢
  cases hcut : cut (docsToRemove sizes moments.counted.length)
      (moments.shown.map (·.tsNanos)) with
  | none =>
      refine iff_of_true ⟨List.Perm.refl _, fun d hd => (nomatch hd), Nat.zero_le _, rfl⟩ ?_
      intro cutoff hiscut
      rw [← cut_eq_some_iff, hcut] at hiscut
      exact nomatch hiscut
  | some cutoff =>
      rw [hcut] at holdest
      constructor
      · intro h other hother
        obtain rfl := (cut_eq_some_iff.mp hcut).unique hother
        rw [List.countP_eq_length_filter]
        exact h.returned.symm
      · intro h
        have hcount := h cutoff (cut_eq_some_iff.mp hcut)
        rw [List.countP_eq_length_filter] at hcount
        exact ⟨List.filter_append_perm _ _,
          fun d hd k hk => Int.le_of_lt (holdest d hd k hk), Nat.le_of_eq hcount, hcount.symm⟩

-- ── every run ─────────────────────────────────────────────────────────────────

/-- What an eviction knows is what comes of its moments. -/
def Sound (s : State) : Prop :=
  match s.stage with
  | .called => True
  | .cutting n counted => n = docsToRemove sizes counted.length
  | .deleting n cutoff counted shown =>
      n = docsToRemove sizes counted.length ∧ cut n (shown.map (·.tsNanos)) = some cutoff
  | .reloading moments eviction | .returned moments eviction =>
      eviction = evictToSize sizes moments

theorem cut_zero (keys : List Int) : cut 0 keys = none := rfl

/-- An eviction that leaves early has nothing to remove. -/
theorem sound_leave {s : State} {counted : List PendingDoc}
    (h : cut (docsToRemove sizes counted.length) (s.reader.map (·.tsNanos)) = none) :
    Sound sizes (s.leave counted) := by
  show _ = evictToSize sizes ⟨counted, s.reader, s.docs⟩
  rw [evictToSize, h]

theorem sound_evictStep {s : State} (h : Sound sizes s) : Sound sizes (evictStep sizes s) := by
  rw [evictStep]
  cases hstage : s.stage with
  | called =>
      simp only
      have hnone : docsToRemove sizes s.reader.length = 0 → Sound sizes (s.leave s.reader) := by
        intro hzero
        refine sound_leave sizes ?_
        rw [hzero, cut_zero]
      split
      · next hsmall => exact hnone (if_pos hsmall)
      · next hlarge =>
          have hn : docsToRemove sizes s.reader.length
              = s.reader.length - sizes.targetDocs s.reader.length := if_neg hlarge
          split
          · next hempty => exact hnone (by rw [hn, hempty, Nat.zero_sub])
          · split
            · next hzero => exact hnone (hn.trans hzero)
            · exact hn.symm
  | cutting n counted =>
      rw [Sound, hstage] at h
      simp only at h ⊢
      subst h
      split
      · next hcut => exact sound_leave sizes hcut
      · next cutoff hcut => exact ⟨rfl, hcut⟩
  | deleting n cutoff counted shown =>
      rw [Sound, hstage] at h
      obtain ⟨rfl, hcut⟩ := h
      show _ = evictToSize sizes ⟨counted, shown, s.docs⟩
      rw [evictToSize, hcut]
  | reloading moments eviction =>
      rw [Sound, hstage] at h
      exact h
  | returned moments eviction => exact h

theorem sound_step (s : State) (a : Action) (h : Sound sizes s) : Sound sizes (step sizes s a) := by
  cases a with
  | commit change => exact h
  | reload => exact h
  | evict => exact sound_evictStep sizes h

/-- **EVICTION IS EXACT**, whatever commits between its steps: exactly if, of the documents
    that are committed when it deletes, as many as were to be removed are not later than the
    last of so many oldest ones that the reader showed. -/
theorem exact_iff {s : State} (hcalled : s.stage = .called) {as : List Action} {moments : Moments}
    {eviction : Eviction} (hreturned : (run (step sizes) s as).stage = .returned moments eviction) :
    Exact sizes moments eviction
      ↔ ∀ cutoff, IsCut (docsToRemove sizes moments.counted.length)
          (moments.shown.map (·.tsNanos)) cutoff →
        moments.docs.countP (fun d => decide (d.tsNanos ≤ cutoff))
          = docsToRemove sizes moments.counted.length := by
  have hstart : Sound sizes s := by
    rw [Sound, hcalled]
    trivial
  have hsound := run_invariant (step sizes) (sound_step sizes) as s hstart
  rw [Sound, hreturned] at hsound
  obtain rfl : eviction = evictToSize sizes moments := hsound
  exact exact_evictToSize_iff sizes moments

-- ── an eviction of one document, and two of two ───────────────────────────────

/-- One byte too many for each hundred. -/
def slightlyLarge : Sizes := ⟨101, 100, fun totalDocs => totalDocs * 100 / 101⟩

def docAt (tsNanos : Int) (seq : Nat) : PendingDoc :=
  ⟨"r1", "web", "stdout", "info", tsNanos, "", seq, "", "", []⟩

/-- An eviction is called, and the reader shows what is committed. -/
def calledOn (docs : List PendingDoc) : State := ⟨docs, docs, .called⟩

/-- A line that is ingested before the documents are deleted. -/
def interrupted (line : PendingDoc) : List Action :=
  [.evict, .evict, .commit (.ingest [] [line]), .evict, .evict]

/-- A newer line does no harm. -/
theorem exact_newer :
    Exact slightlyLarge
      ⟨[docAt 1 0, docAt 2 1], [docAt 1 0, docAt 2 1], [docAt 1 0, docAt 2 1, docAt 3 2]⟩
      ⟨[docAt 1 0], [docAt 2 1, docAt 3 2], 1⟩ := by
  have hreturned : (run (step slightlyLarge) (calledOn [docAt 1 0, docAt 2 1])
      (interrupted (docAt 3 2))).stage = .returned _ _ := rfl
  refine (exact_iff slightlyLarge rfl hreturned).mpr fun cutoff hcut => ?_
  obtain rfl : cutoff = 1 := hcut.unique (isCut_of_cut rfl)
  rfl

/-- One document is to be removed, and two are: two have no timestamp, or an older line is
    ingested in between. -/
theorem two_deleted :
    (∃ moments eviction, (run (step slightlyLarge)
        (calledOn [docAt 0 0, docAt 0 1, docAt 5 2]) (List.replicate 4 .evict)).stage
          = .returned moments eviction ∧ ¬ Exact slightlyLarge moments eviction)
      ∧ ∃ moments eviction, (run (step slightlyLarge)
        (calledOn [docAt 5 0, docAt 7 1]) (interrupted (docAt 3 2))).stage
          = .returned moments eviction ∧ ¬ Exact slightlyLarge moments eviction := by
  refine ⟨⟨_, _, rfl, fun h => ?_⟩, ⟨_, _, rfl, fun h => ?_⟩⟩
  · exact absurd h.returned (by decide +kernel)
  · exact absurd h.returned (by decide +kernel)

end DevstackSizeEviction
