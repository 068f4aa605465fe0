import Devstack.TaskHistory

/-! # File updates — one file, loaded, changed and written whole by several at once

    An update asks whether the file is there, reads and parses it, changes what it
    has found and writes the whole again by `atomic_write`.  An update that has
    nothing to change ends with the load.

    The updates that have completed are kept beside the files, in the order in which
    they replaced the file.  While no update loads the file between another's load
    and its rename, the file is what these updates make of it, one after the other
    (`updates_kept`); a write that fails changes nothing. -/

namespace DevstackFileUpdates

open DevstackFiles DevstackInterleaving DevstackMachine DevstackAtomicWrite
open DevstackTaskHistory (underWay solo_step)

/-- A file with values of `α`, and updates of it. -/
structure Updated (α υ : Type) where
  path : String
  parse : List UInt8 → Except String α
  serialize : α → List UInt8
  /-- What there is without the file. -/
  absent : α
  /-- What an update makes of the file; nothing if it leaves it as it is. -/
  change : υ → α → Option α

inductive Stage where
  | called
  | reading
  | writing (writer : Writer)
  | unchanged
  | failed

structure FileTask (υ : Type) where
  update : υ
  stage : Stage

/-- The files, and the updates that have completed. -/
structure Disk (υ : Type) where
  files : Files String
  completed : List υ

section Steps

variable {α υ : Type} (k : Updated α υ)

def load (f : Files String) : Except String α :=
  match f.content k.path with
  | none => .ok k.absent
  | some bytes => k.parse bytes

/-- What updates make of a value, one after the other. -/
def after (value : α) (updates : List υ) : α :=
  updates.foldl (fun value update => (k.change update value).getD value) value

/-- An update has loaded the file. -/
def loaded (disk : Disk υ) (value : α) (t : FileTask υ) : Disk υ × List (FileTask υ) :=
  match k.change t.update value with
  | none => ({ disk with completed := disk.completed ++ [t.update] }, [{ t with stage := .unchanged }])
  | some changed =>
      (disk, [{ t with stage := .writing ⟨⟨k.path, k.serialize changed⟩, .begin⟩ }])

def FileTask.step (env : Env) (disk : Disk υ) (t : FileTask υ) : Disk υ × List (FileTask υ) :=
  match t.stage with
  | .called =>
      match disk.files.content k.path with
      | none => loaded k disk k.absent t
      | some _ => (disk, [{ t with stage := .reading }])
  | .reading =>
      if env.fault then (disk, [{ t with stage := .failed }])
      else
        match (disk.files.content k.path).map k.parse with
        | some (.ok value) => loaded k disk value t
        | _ => (disk, [{ t with stage := .failed }])
  | .writing writer =>
      let next := writer.step env disk.files
      let renamed := underWay writer && next.2.any (fun writer => writer.phase == .done)
      (⟨next.1, if renamed then disk.completed ++ [t.update] else disk.completed⟩,
        next.2.map (fun writer => { t with stage := .writing writer }))
  | .unchanged | .failed => (disk, [t])

/-- Updates none of which has begun. -/
def updating (f : Files String) (updates : List υ) : Disk υ × List (FileTask υ) :=
  (⟨f, []⟩, updates.map (fun update => ⟨update, .called⟩))

/-- The file is what the completed updates make of it. -/
def Kept (initial : α) (s : Disk υ × List (FileTask υ)) : Prop :=
  load k s.1.files = .ok (after k initial s.1.completed)

/-- The step at which an update has loaded the file. -/
def loads (f : Files String) (t : FileTask υ) : Bool :=
  match t.stage with
  | .called => (f.content k.path).isNone
  | .reading => true
  | _ => false

/-- When an update loads the file, no other one has loaded it and is still to replace it. -/
def Alone (s : Disk υ × List (FileTask υ)) (a : Nat × Env) : Prop :=
  ∀ t, s.2[a.1]? = some t → loads k s.1.files t = true →
    ∀ (j : Nat) (other : FileTask υ) (writer : Writer), s.2[j]? = some other →
      other.stage = .writing writer → underWay writer = false

/-- What these updates make of the initial value is read as it was printed. -/
def Faithful (initial : α) (updates : List υ) : Prop :=
  ∀ done : List υ, (∀ update ∈ done, update ∈ updates) →
    k.parse (k.serialize (after k initial done)) = .ok (after k initial done)

end Steps

/-! ## The invariant -/

section Invariant

variable {α υ : Type} {k : Updated α υ} {initial : α} {updates : List υ}

theorem after_append (value : α) (done : List υ) (update : υ) :
    after k value (done ++ [update])
      = (k.change update (after k value done)).getD (after k value done) := by
  rw [after, List.foldl_append]
  rfl

/-- An update under way will replace the file by what it makes of what is there. -/
def Prepared (k : Updated α υ) (initial : α) (disk : Disk υ) (t : FileTask υ) (writer : Writer) : Prop :=
  Holds disk.files writer ∧ writer.call.path = k.path
    ∧ ∃ changed, k.change t.update (after k initial disk.completed) = some changed
      ∧ writer.call.data = k.serialize changed

structure Inv (k : Updated α υ) (initial : α) (updates : List υ) (s : Disk υ × List (FileTask υ)) :
    Prop where
  wellFormed : s.1.files.WellFormed
  kept : Kept k initial s
  completed : ∀ update ∈ s.1.completed, update ∈ updates
  updates : ∀ t ∈ s.2, t.update ∈ updates
  prepared : ∀ (i : Nat) (t : FileTask υ) (writer : Writer), s.2[i]? = some t →
    t.stage = .writing writer → underWay writer = true → Prepared k initial s.1 t writer
  alone : ∀ (i j : Nat) (t t' : FileTask υ) (writer writer' : Writer), s.2[i]? = some t →
    s.2[j]? = some t' → t.stage = .writing writer → t'.stage = .writing writer' →
    underWay writer = true → underWay writer' = true → i = j

theorem inv_updating {f : Files String} (hf : f.WellFormed) (hload : load k f = .ok initial) :
    Inv k initial updates (updating f updates) := by
  have hstage : ∀ (i : Nat) (t : FileTask υ), (updating f updates).2[i]? = some t →
      t.stage = .called := by
    intro i t ht
    rw [updating, List.getElem?_map] at ht
    obtain ⟨update, -, rfl⟩ := Option.map_eq_some_iff.mp ht
    rfl
  refine ⟨hf, hload, fun _ h => (nomatch h), ?_, ?_, ?_⟩
  · intro t ht
    obtain ⟨update, hin, rfl⟩ := List.mem_map.mp ht
    exact hin
  · intro i t writer ht hwriting
    exact nomatch (hstage i t ht).symm.trans hwriting
  · intro i j t t' writer writer' ht _ hwriting
    exact nomatch (hstage i t ht).symm.trans hwriting

variable {s : Disk υ × List (FileTask υ)} {disk' : Disk υ} {i : Nat} {t t' : FileTask υ}

/-- The task at a position took a step, on a disk that keeps the file. -/
theorem inv_set (h : Inv k initial updates s) (hget : s.2[i]? = some t)
    (hupdate : t'.update = t.update) (hwf : disk'.files.WellFormed)
    (hkept : load k disk'.files = .ok (after k initial disk'.completed))
    (hcompleted : ∀ update ∈ disk'.completed, update ∈ updates)
    (hown : ∀ writer, t'.stage = .writing writer → underWay writer = true →
      Prepared k initial disk' t' writer)
    (hothers : ∀ (j : Nat) (other : FileTask υ) (writer : Writer), s.2[j]? = some other → j ≠ i →
      other.stage = .writing writer → underWay writer = true →
      Prepared k initial disk' other writer
        ∧ ∀ own, t'.stage = .writing own → underWay own = false) :
    Inv k initial updates (disk', s.2.set i t') := by
  obtain ⟨hlt, -⟩ := List.getElem?_eq_some_iff.mp hget
  have hself : (s.2.set i t')[i]? = some t' := List.getElem?_set_self hlt
  -- the task at a position is the new one, or the one that was there
  have hback : ∀ (j : Nat) (u : FileTask υ), (s.2.set i t')[j]? = some u →
      j = i ∧ u = t' ∨ j ≠ i ∧ s.2[j]? = some u := by
    intro j u hu
    by_cases hj : j = i
    · subst hj
      exact Or.inl ⟨rfl, Option.some.inj (hu.symm.trans hself)⟩
    · rw [List.getElem?_set_ne (Ne.symm hj)] at hu
      exact Or.inr ⟨hj, hu⟩
  refine ⟨hwf, hkept, hcompleted, ?_, ?_, ?_⟩
  · intro u hu
    rcases List.mem_or_eq_of_mem_set hu with hold | rfl
    · exact h.updates u hold
    · rw [hupdate]
      exact h.updates t (List.mem_of_getElem? hget)
  · intro j u writer hu hwriting hbusy
    obtain ⟨-, rfl⟩ | ⟨hj, hold⟩ := hback j u hu
    · exact hown writer hwriting hbusy
    · exact (hothers j u writer hold hj hwriting hbusy).1
  · intro j l u u' writer writer' hu hu' hwriting hwriting' hbusy hbusy'
    obtain ⟨hj, hnew⟩ | ⟨hj, hold⟩ := hback j u hu
    · obtain ⟨hl, -⟩ | ⟨hl, hold'⟩ := hback l u' hu'
      · rw [hj, hl]
      · have hfree := (hothers l u' writer' hold' hl hwriting' hbusy').2 writer (hnew ▸ hwriting)
        rw [hbusy] at hfree
        exact nomatch hfree
    · obtain ⟨hl, hnew⟩ | ⟨hl, hold'⟩ := hback l u' hu'
      · have hfree := (hothers j u writer hold hj hwriting hbusy).2 writer' (hnew ▸ hwriting')
        rw [hbusy'] at hfree
        exact nomatch hfree
      · exact h.alone j l u u' writer writer' hold hold' hwriting hwriting' hbusy hbusy'

/-- A step that writes nothing. -/
theorem inv_still (h : Inv k initial updates s) (hget : s.2[i]? = some t)
    (hupdate : t'.update = t.update)
    (hidle : ∀ writer, t'.stage = .writing writer → underWay writer = false) :
    Inv k initial updates (s.1, s.2.set i t') := by
  refine inv_set h hget hupdate h.wellFormed h.kept h.completed ?_ ?_
  · intro writer hwriting hbusy
    rw [hidle writer hwriting] at hbusy
    exact nomatch hbusy
  · intro j other writer hother _ hwriting hbusy
    exact ⟨h.prepared j other writer hother hwriting hbusy, hidle⟩

/-- An update has loaded the file, while no other one is under way. -/
theorem inv_loaded {env : Env} {value : α} (h : Inv k initial updates s) (hget : s.2[i]? = some t)
    (hload : load k s.1.files = .ok value) (hstep : t.step k env s.1 = loaded k s.1 value t)
    (halone : ∀ (j : Nat) (other : FileTask υ) (writer : Writer), s.2[j]? = some other →
      other.stage = .writing writer → underWay writer = false) :
    Inv k initial updates (stepAt (FileTask.step k) s (i, env)) := by
  have hvalue : value = after k initial s.1.completed := Except.ok.inj (hload.symm.trans h.kept)
  subst hvalue
  have hnone : ∀ (j : Nat) (other : FileTask υ) (writer : Writer), s.2[j]? = some other →
      other.stage = .writing writer → underWay writer = true → False := by
    intro j other writer hother hwriting hbusy
    rw [halone j other writer hother hwriting] at hbusy
    exact nomatch hbusy
  rw [loaded] at hstep
  split at hstep
  · next hchange =>
      rw [stepAt_one (FileTask.step k) hget hstep]
      refine inv_set h hget rfl h.wellFormed ?_ ?_ ?_ ?_
      · rw [after_append, hchange]
        exact h.kept
      · intro update hupdate
        rcases List.mem_append.mp hupdate with hupdate | hupdate
        · exact h.completed update hupdate
        · rw [List.mem_singleton.mp hupdate]
          exact h.updates t (List.mem_of_getElem? hget)
      · exact fun writer hwriting => nomatch hwriting
      · exact fun j other writer hother _ hwriting hbusy =>
          (hnone j other writer hother hwriting hbusy).elim
  · next changed hchange =>
      rw [stepAt_one (FileTask.step k) hget hstep]
      refine inv_set h hget rfl h.wellFormed h.kept h.completed ?_ ?_
      · intro writer hwriting _
        obtain rfl := Stage.writing.inj hwriting
        exact ⟨trivial, rfl, changed, hchange, rfl⟩
      · exact fun j other writer hother _ hwriting hbusy =>
          (hnone j other writer hother hwriting hbusy).elim

/-- The one update that is under way takes a step: the file is as it was, or what the
    update makes of it. -/
theorem inv_written {writer : Writer} (hpath : k.path ≠ tmpPath k.path)
    (hfaithful : Faithful k initial updates) (h : Inv k initial updates s)
    (hget : s.2[i]? = some t) (hwriting : t.stage = .writing writer)
    (hbusy : underWay writer = true) (env : Env) :
    Inv k initial updates (stepAt (FileTask.step k) s (i, env)) := by
  obtain ⟨hholds, hown, changed, hchange, hdata⟩ := h.prepared i t writer hget hwriting hbusy
  obtain ⟨writer', hnext, hcall, hwf, hholds', hcontent⟩ :=
    solo_step env h.wellFormed (by rw [hown]; exact hpath) hholds hbusy
  have hothers : ∀ (j : Nat) (other : FileTask υ) (w : Writer), s.2[j]? = some other → j ≠ i →
      other.stage = .writing w → underWay w = true → False :=
    fun j other w hother hj hw hb =>
      hj (h.alone j i other t w writer hother hget hw hwriting hb hbusy)
  rw [hown] at hcontent
  obtain ⟨hdone, -, hsame⟩ | ⟨hdone, hreplaced⟩ := hcontent
  · have hstep : t.step k env s.1 = (⟨(writer.step env s.1.files).1, s.1.completed⟩,
        [{ t with stage := .writing writer' }]) := by
      have hphase : (writer'.phase == .done) = false := beq_eq_false_iff_ne.mpr hdone
      rw [FileTask.step, hwriting]
      simp only [hnext, List.any_cons, List.any_nil, hphase, Bool.or_self, Bool.and_false,
        Bool.false_eq_true, if_false, List.map_cons, List.map_nil]
    rw [stepAt_one (FileTask.step k) hget hstep]
    refine inv_set h hget rfl hwf ?_ h.completed ?_
      (fun j other w hother hj hw hb => (hothers j other w hother hj hw hb).elim)
    · rw [load, hsame]
      exact h.kept
    · intro w hw _
      obtain rfl := Stage.writing.inj hw
      exact ⟨hholds', hcall ▸ hown, changed, hchange, hcall ▸ hdata⟩
  · have hstep : t.step k env s.1 = (⟨(writer.step env s.1.files).1, s.1.completed ++ [t.update]⟩,
        [{ t with stage := .writing writer' }]) := by
      rw [FileTask.step, hwriting]
      simp only [hnext, List.any_cons, hdone, beq_self_eq_true, Bool.true_or, hbusy, Bool.and_self,
        if_true, List.map_cons, List.map_nil]
    have hcompleted : ∀ update ∈ s.1.completed ++ [t.update], update ∈ updates := by
      intro update hupdate
      rcases List.mem_append.mp hupdate with hupdate | hupdate
      · exact h.completed update hupdate
      · rw [List.mem_singleton.mp hupdate]
        exact h.updates t (List.mem_of_getElem? hget)
    rw [stepAt_one (FileTask.step k) hget hstep]
    refine inv_set h hget rfl hwf ?_ hcompleted ?_
      (fun j other w hother hj hw hb => (hothers j other w hother hj hw hb).elim)
    · have hchanged : after k initial (s.1.completed ++ [t.update]) = changed := by
        rw [after_append, hchange]
        rfl
      rw [load, hreplaced, hdata, ← hchanged]
      exact hfaithful _ hcompleted
    · intro w hw hb
      obtain rfl := Stage.writing.inj hw
      rw [underWay, hdone] at hb
      cases hb

/-- A task that stays as it is. -/
theorem stepAt_same {env : Env} (hget : s.2[i]? = some t) (hstep : t.step k env s.1 = (s.1, [t])) :
    stepAt (FileTask.step k) s (i, env) = s := by
  obtain ⟨hlt, hin⟩ := List.getElem?_eq_some_iff.mp hget
  rw [stepAt_one (FileTask.step k) hget hstep, ← hin, List.set_getElem_self]

/-- **A STEP** at which no update loads what another one will replace keeps the file. -/
theorem inv_step (hpath : k.path ≠ tmpPath k.path) (hfaithful : Faithful k initial updates)
    (s : Disk υ × List (FileTask υ)) (a : Nat × Env) (h : Inv k initial updates s) (hcond : Alone k s a) :
    Inv k initial updates (stepAt (FileTask.step k) s a) := by
  obtain ⟨i, env⟩ := a
  cases hget : s.2[i]? with
  | none =>
      rw [stepAt_none (FileTask.step k) hget]
      exact h
  | some t =>
      have hcond : loads k s.1.files t = true → _ := hcond t hget
      have hto : ∀ stage : Stage, (∀ writer, stage ≠ .writing writer) →
          t.step k env s.1 = (s.1, [{ t with stage := stage }]) →
          Inv k initial updates (stepAt (FileTask.step k) s (i, env)) := by
        intro stage hnot hstep
        rw [stepAt_one (FileTask.step k) hget hstep]
        exact inv_still h hget rfl fun writer hwriting => absurd hwriting (hnot writer)
      cases hstage : t.stage with
      | called =>
          cases hfile : s.1.files.content k.path with
          | none =>
              refine inv_loaded h hget (by rw [load, hfile]) ?_ (hcond ?_)
              · rw [FileTask.step, hstage]
                simp only [hfile]
              · rw [loads, hstage, hfile]
                rfl
          | some bytes =>
              refine hto .reading (fun _ => Stage.noConfusion) ?_
              rw [FileTask.step, hstage]
              simp only [hfile]
      | reading =>
          by_cases hfault : env.fault = true
          · refine hto .failed (fun _ => Stage.noConfusion) ?_
            rw [FileTask.step, hstage]
            exact if_pos hfault
          · have hstep : t.step k env s.1 = match (s.1.files.content k.path).map k.parse with
                | some (.ok value) => loaded k s.1 value t
                | _ => (s.1, [{ t with stage := .failed }]) := by
              rw [FileTask.step, hstage]
              exact if_neg hfault
            split at hstep
            · next value hparse =>
                obtain ⟨bytes, hfile, hparse⟩ := Option.map_eq_some_iff.mp hparse
                refine inv_loaded h hget (by rw [load, hfile]; exact hparse) hstep (hcond ?_)
                rw [loads, hstage]
            · exact hto .failed (fun _ => Stage.noConfusion) hstep
      | writing writer =>
          cases hbusy : underWay writer with
          | true => exact inv_written hpath hfaithful h hget hstage hbusy env
          | false =>
              have hstep : t.step k env s.1 = (s.1, [t]) := by
                have hwriter : writer.step env s.1.files = (s.1.files, [writer]) := by
                  obtain ⟨call, phase⟩ := writer
                  cases phase with
                  | begin | writing _ _ | synced => exact nomatch hbusy
                  | done | faulted | missing => rfl
                rw [FileTask.step, hstage]
                simp only [hwriter, hbusy, Bool.false_and, Bool.false_eq_true, if_false,
                  List.map_cons, List.map_nil, ← hstage]
              rw [stepAt_same hget hstep]
              exact h
      | unchanged | failed =>
          rw [stepAt_same hget (by rw [FileTask.step, hstage])]
          exact h

end Invariant

/-- **NO UPDATE IS LOST** along any run in which no update loads the file between another's
    load and its rename, whichever writes fail. -/
theorem updates_kept {α υ : Type} (k : Updated α υ) (hpath : k.path ≠ tmpPath k.path)
    {f : Files String} (hf : f.WellFormed) {initial : α} (hload : load k f = .ok initial)
    {updates : List υ} (hfaithful : Faithful k initial updates) (as : List (Nat × Env))
    (hcond : Along (stepAt (FileTask.step k)) (Alone k) (updating f updates) as) :
    Along (stepAt (FileTask.step k)) (fun s a => Kept k initial (stepAt (FileTask.step k) s a))
      (updating f updates) as :=
  along_of_guarded (stepAt (FileTask.step k)) (inv_step hpath hfaithful)
    (fun s a h hok => (inv_step hpath hfaithful s a h hok).kept) as _
    (inv_updating hf hload) hcond

/-! ## The condition, decided -/

section Decided

variable {α υ : Type} (k : Updated α υ)

/-- An update has loaded the file and not replaced it. -/
def FileTask.busy (t : FileTask υ) : Bool :=
  match t.stage with
  | .writing writer => underWay writer
  | _ => false

theorem alone_iff (s : Disk υ × List (FileTask υ)) (a : Nat × Env) :
    Alone k s a
      ↔ (s.2[a.1]?.any (loads k s.1.files) = true → ∀ other ∈ s.2, other.busy = false) := by
  constructor
  · intro h hany other hmem
    obtain ⟨t, hget, hloads⟩ := (Option.any_eq_true _ _).mp hany
    obtain ⟨j, hj⟩ := List.mem_iff_getElem?.mp hmem
    rw [FileTask.busy]
    split
    · next writer hwriting => exact h t hget hloads j other writer hj hwriting
    · rfl
  · intro h t hget hloads j other writer hj hwriting
    have hbusy := h (by rw [hget]; exact hloads) other (List.mem_of_getElem? hj)
    rw [FileTask.busy, hwriting] at hbusy
    exact hbusy

instance (s : Disk υ × List (FileTask υ)) (a : Nat × Env) : Decidable (Alone k s a) :=
  decidable_of_iff' _ (alone_iff k s a)

end Decided

end DevstackFileUpdates
