import Devstack.Lib.Files
import Devstack.Lib.Interleaving

/-! # Atomic writes — several at once in one directory

    `atomic_write` of `src/util.rs`: create a temporary file, write the bytes, sync,
    rename it to the path.  The steps of different calls interleave; `write_all`
    may take any number of writes.

    The temporary file's name is the path with its extension replaced by `tmp`:
    calls for one path, or for paths that differ in their extension only, share it. -/

namespace DevstackAtomicWrite

open DevstackFiles DevstackInterleaving DevstackMachine

/-! ## The temporary name -/

/-- The part of a file name before its last dot, if it has one. -/
def beforeLastDot (name : List Char) : Option (List Char) :=
  match name.reverse.dropWhile (· ≠ '.') with
  | [] => none
  | _ :: before => some before.reverse

/-- `Path::file_stem`. -/
def fileStem (name : List Char) : List Char :=
  match beforeLastDot name with
  | some (ch :: before) => ch :: before
  | _ => name

/-- `path.with_extension("tmp")`; a path without a file name is left alone. -/
def tmpPath (name : String) : String :=
  if name = "" ∨ name = ".." then name
  else String.ofList (fileStem name.toList ++ ".tmp".toList)

theorem beforeLastDot_tmp (stem : List Char) :
    beforeLastDot (stem ++ ".tmp".toList) = some stem := by
  have hreverse : (stem ++ ".tmp".toList).reverse = ['p', 'm', 't', '.'] ++ stem.reverse := by
    rw [List.reverse_append]
    rfl
  rw [beforeLastDot, hreverse]
  simp [List.dropWhile]

/-- A file name has a stem. -/
theorem fileStem_ne_nil {name : List Char} (hne : name ≠ []) : fileStem name ≠ [] := by
  rw [fileStem]
  split
  · exact List.cons_ne_nil _ _
  · exact hne

/-- A temporary name is its own temporary name. -/
theorem tmpPath_tmpPath (name : String) : tmpPath (tmpPath name) = tmpPath name := by
  by_cases hname : name = "" ∨ name = ".."
  · have htmp : tmpPath name = name := if_pos hname
    rw [htmp, htmp]
  · have hne : name.toList ≠ [] := by
      intro hnil
      exact hname (Or.inl (String.toList_inj.mp hnil))
    obtain ⟨ch, before, hstem⟩ := List.exists_cons_of_ne_nil (fileStem_ne_nil hne)
    have htmp : tmpPath name = String.ofList (fileStem name.toList ++ ".tmp".toList) :=
      if_neg hname
    have hlength : ¬ (tmpPath name = "" ∨ tmpPath name = "..") := by
      rw [htmp, ← String.toList_inj, ← String.toList_inj, String.toList_ofList, hstem]
      rintro (h | h)
      · exact absurd (congrArg List.length h) (by simp)
      · exact absurd (congrArg List.length h) (by simp)
    have hagain : fileStem (tmpPath name).toList = fileStem name.toList := by
      rw [htmp, String.toList_ofList, fileStem, beforeLastDot_tmp, hstem]
    rw [show tmpPath (tmpPath name) = _ from if_neg hlength, hagain, htmp]

/-! ## The steps of a call -/

structure Call where
  path : String
  data : List UInt8
  deriving DecidableEq, Repr

/-- Where a call is: before it creates its file; with so many bytes written; before
    the rename; through; ended by an error of its own; ended because its temporary
    file was gone. -/
inductive Phase where
  | begin
  | writing (file written : Nat)
  | synced
  | done
  | faulted
  | missing
  deriving DecidableEq, Repr

structure Writer where
  call : Call
  phase : Phase
  deriving DecidableEq, Repr

/-- What the outside answers to one step: an error, or how many bytes a write took. -/
structure Env where
  fault : Bool
  taken : Nat

/-- The bytes that one write takes, at least one. -/
def chunk (env : Env) (data : List UInt8) (written : Nat) : List UInt8 :=
  (data.drop written).take (env.taken + 1)

/-- The next step of a call. -/
def Writer.step (env : Env) (f : Files String) (w : Writer) : Files String × List Writer :=
  match w.phase with
  | .begin =>
      if env.fault then (f, [{ w with phase := .faulted }])
      else
        let created := f.create (tmpPath w.call.path)
        (created.1, [{ w with phase := .writing created.2 0 }])
  | .writing file written =>
      if written < w.call.data.length then
        if env.fault then (f, [{ w with phase := .faulted }])
        else
          let bytes := chunk env w.call.data written
          (f.write file written bytes,
            [{ w with phase := .writing file (written + bytes.length) }])
      else (f, [{ w with phase := .synced }])
  | .synced =>
      if env.fault then (f, [{ w with phase := .faulted }])
      else
        match f.rename (tmpPath w.call.path) w.call.path with
        | some f' => (f', [{ w with phase := .done }])
        | none => (f, [{ w with phase := .missing }])
  | .done | .faulted | .missing => (f, [w])

/-- The calls in a directory, none of which has begun. -/
def concurrently (f : Files String) (calls : List Call) : Files String × List Writer :=
  (f, calls.map (fun call => ⟨call, .begin⟩))

/-- The calls after some steps, each given by the position of its call. -/
def afterSteps (f : Files String) (calls : List Call) (as : List (Nat × Env)) :
    Files String × List Writer :=
  run (stepAt Writer.step) (concurrently f calls) as

/-! ## What is claimed -/

/-- A path holds its previous content, or the bytes of a call that was begun for it. -/
def Whole (f : Files String) (s : Files String × List Writer) (path : String) : Prop :=
  s.1.content path = f.content path
    ∨ ∃ w ∈ s.2, w.phase ≠ .begin ∧ w.call.path = path ∧ s.1.content path = some w.call.data

/-- No path is torn, and no call was ended by another. -/
def Safe (f : Files String) (s : Files String × List Writer) : Prop :=
  ∀ w ∈ s.2, Whole f s w.call.path ∧ w.phase ≠ .missing

/-- Every interleaving, from any directory, is safe. -/
def Atomic (calls : List Call) : Prop :=
  ∀ (f : Files String), f.WellFormed → ∀ as, Safe f (afterSteps f calls as)

/-- A call writes nothing, to a path that is its own temporary path. -/
def Void (call : Call) : Prop := call.path = tmpPath call.path ∧ call.data = []

/-- The call at a position has its temporary file to itself, or is void. -/
def Private (calls : List Call) : Prop :=
  ∀ (i : Nat) (call : Call), calls[i]? = some call →
    (call.path ≠ tmpPath call.path
      ∧ ∀ (j : Nat) (other : Call), calls[j]? = some other → j ≠ i →
        tmpPath other.path ≠ tmpPath call.path)
    ∨ Void call

/-! ## Private calls are safe -/

/-- What a call that is under way finds in its temporary file. -/
def Holds (f : Files String) (w : Writer) : Prop :=
  match w.phase with
  | .writing file written =>
      f.file (tmpPath w.call.path) = some file
        ∧ f.content (tmpPath w.call.path) = some (w.call.data.take written)
        ∧ written ≤ w.call.data.length
  | .synced => f.content (tmpPath w.call.path) = some w.call.data
  | .missing => False
  | _ => True

structure Inv (f : Files String) (calls : List Call) (s : Files String × List Writer) : Prop where
  wellFormed : s.1.WellFormed
  calls : s.2.map (·.call) = calls
  holds : ∀ (i : Nat) (w : Writer), s.2[i]? = some w → Holds s.1 w
  whole : ∀ w ∈ s.2, Whole f s w.call.path

section Step

variable {f f' : Files String} {calls : List Call} {s : Files String × List Writer}
  {i : Nat} {w w' : Writer}

/-- A call whose temporary file is named alike finds the same content there. -/
theorem Holds.congr {v : Writer} {g g' : Files String} (h : Holds g v)
    (hfile : g'.file (tmpPath v.call.path) = g.file (tmpPath v.call.path))
    (hcontent : g'.content (tmpPath v.call.path) = g.content (tmpPath v.call.path)) :
    Holds g' v := by
  rw [Holds] at h ⊢
  split
  · next file written hphase =>
      rw [hphase] at h
      rw [hfile, hcontent]
      exact h
  · next hphase =>
      rw [hphase] at h
      rw [hcontent]
      exact h
  · next hphase =>
      rw [hphase] at h
      exact h
  · trivial

/-- The writer of a position was called with the call of that position. -/
theorem Inv.call_at (h : Inv f calls s) {j : Nat} {v : Writer} (hv : s.2[j]? = some v) :
    calls[j]? = some v.call := by
  rw [← h.calls, List.getElem?_map, hv, Option.map_some]

/-- Another call with the same temporary file: both are void. -/
theorem void_of_shared (hprivate : Private calls) (h : Inv f calls s) (hw : s.2[i]? = some w)
    {j : Nat} {v : Writer} (hv : s.2[j]? = some v) (hij : j ≠ i)
    (htmp : tmpPath v.call.path = tmpPath w.call.path) : Void w.call ∧ Void v.call := by
  refine ⟨?_, ?_⟩
  · rcases hprivate i w.call (h.call_at hw) with ⟨-, halone⟩ | hvoid
    · exact absurd htmp (halone j v.call (h.call_at hv) hij)
    · exact hvoid
  · rcases hprivate j v.call (h.call_at hv) with ⟨-, halone⟩ | hvoid
    · exact absurd htmp.symm (halone i w.call (h.call_at hw) (Ne.symm hij))
    · exact hvoid

/-- Nobody writes to the temporary path of a call that is not void. -/
theorem path_ne_tmp (hprivate : Private calls) (h : Inv f calls s) (hw : s.2[i]? = some w)
    (hvoid : ¬ Void w.call) {v : Writer} (hv : v ∈ s.2) : v.call.path ≠ tmpPath w.call.path := by
  intro hpath
  obtain ⟨j, hv⟩ := List.mem_iff_getElem?.mp hv
  have htmp : tmpPath v.call.path = tmpPath w.call.path := by rw [hpath, tmpPath_tmpPath]
  by_cases hij : j = i
  · subst hij
    obtain rfl := Option.some.inj (hv.symm.trans hw)
    exact ((hprivate j v.call (h.call_at hv)).resolve_right hvoid).1 hpath
  · exact hvoid (void_of_shared hprivate h hw hv hij htmp).1

/-- A step that leaves the others their temporary files and gives a path either
    what it had or the bytes of its own call. -/
theorem inv_set (h : Inv f calls s) (hw : s.2[i]? = some w) (hcall : w'.call = w.call)
    (hbegun : w'.phase ≠ .begin) (hwf : f'.WellFormed) (hholds : Holds f' w')
    (hothers : ∀ (j : Nat) (v : Writer), s.2[j]? = some v → j ≠ i → Holds f' v)
    (hpaths : ∀ v ∈ s.2, f'.content v.call.path = s.1.content v.call.path
      ∨ v.call.path = w.call.path ∧ f'.content v.call.path = some w.call.data) :
    Inv f calls (f', s.2.set i w') := by
  obtain ⟨hlt, hget⟩ := List.getElem?_eq_some_iff.mp hw
  have hself : (s.2.set i w')[i]? = some w' := by
    rw [List.getElem?_set_self hlt]
  have hmem' : w' ∈ s.2.set i w' := List.mem_of_getElem? hself
  -- every writer is still there, with the same call, and begun if it was
  have hkeep : ∀ u ∈ s.2, ∃ u' ∈ s.2.set i w',
      u'.call = u.call ∧ (u.phase ≠ .begin → u'.phase ≠ .begin) := by
    intro u hu
    obtain ⟨j, hj⟩ := List.mem_iff_getElem?.mp hu
    by_cases hij : j = i
    · subst hij
      obtain rfl := Option.some.inj (hj.symm.trans hw)
      exact ⟨w', hmem', hcall, fun _ => hbegun⟩
    · refine ⟨u, List.mem_of_getElem? (i := j) ?_, rfl, id⟩
      rw [List.getElem?_set_ne (Ne.symm hij), hj]
  refine ⟨hwf, ?_, fun j v hv => ?_, fun v hv => ?_⟩
  · have hsame : ∀ l : List Call, l[i]? = some w.call → l.set i w.call = l := by
      intro l hl
      obtain ⟨hlt, heq⟩ := List.getElem?_eq_some_iff.mp hl
      rw [← heq, List.set_getElem_self]
    rw [List.map_set, hcall, h.calls]
    exact hsame calls (h.call_at hw)
  · by_cases hij : j = i
    · subst hij
      obtain rfl := Option.some.inj (hself.symm.trans hv)
      exact hholds
    · rw [List.getElem?_set_ne (Ne.symm hij)] at hv
      exact hothers j v hv hij
  · -- the path of a writer was the path of a writer before
    obtain ⟨v₀, hv₀, hpath⟩ : ∃ v₀ ∈ s.2, v₀.call.path = v.call.path := by
      rcases List.mem_or_eq_of_mem_set hv with hold | rfl
      · exact ⟨v, hold, rfl⟩
      · exact ⟨w, List.mem_of_getElem? hw, by rw [hcall]⟩
    rw [← hpath]
    rcases hpaths v₀ hv₀ with hsame | ⟨hown, hdata⟩
    · rcases h.whole v₀ hv₀ with hbefore | ⟨u, hu, hphase, hupath, hdata⟩
      · exact Or.inl (hsame.trans hbefore)
      · obtain ⟨u', hu', hucall, hubegun⟩ := hkeep u hu
        refine Or.inr ⟨u', hu', hubegun hphase, by rw [hucall, hupath], ?_⟩
        rw [hucall, ← hdata]
        exact hsame
    · exact Or.inr ⟨w', hmem', hbegun, by rw [hcall, hown], by rw [hcall]; exact hdata⟩

/-- A step that touches no file. -/
theorem inv_still (h : Inv f calls s) (hw : s.2[i]? = some w) (hcall : w'.call = w.call)
    (hbegun : w'.phase ≠ .begin) (hholds : Holds s.1 w') :
    Inv f calls (s.1, s.2.set i w') :=
  inv_set h hw hcall hbegun h.wellFormed hholds (fun j v hv _ => h.holds j v hv)
    (fun _ _ => Or.inl rfl)

/-- The temporary file is created. -/
theorem inv_create (hprivate : Private calls) (h : Inv f calls s) (hw : s.2[i]? = some w) :
    Inv f calls ((s.1.create (tmpPath w.call.path)).1,
      s.2.set i { w with phase := .writing (s.1.create (tmpPath w.call.path)).2 0 }) := by
  obtain ⟨hfile, hempty⟩ := @create_self _ _ s.1 (tmpPath w.call.path)
  have hcontent : (s.1.create (tmpPath w.call.path)).1.content (tmpPath w.call.path) = some [] := by
    rw [content_of_file hfile, hempty]
  refine inv_set h hw rfl Phase.noConfusion (create_wellFormed _ h.wellFormed)
    ⟨hfile, hcontent, Nat.zero_le _⟩ (fun j v hv hij => ?_) (fun v hv => ?_)
  · by_cases htmp : tmpPath v.call.path = tmpPath w.call.path
    · -- both are void: the file was empty, and is emptied
      obtain ⟨-, -, hdata⟩ := void_of_shared hprivate h hw hv hij htmp
      have hold := h.holds j v hv
      rw [Holds] at hold ⊢
      split
      · next file written hphase =>
          rw [hphase] at hold
          obtain ⟨hget, -, hwritten⟩ := hold
          rw [htmp] at hget ⊢
          refine ⟨?_, ?_, hwritten⟩
          · rw [create_existing _ hget]
            exact hget
          · rw [hcontent, hdata, List.take_nil]
      · rw [htmp, hcontent, hdata]
      · next hphase =>
          rw [hphase] at hold
          exact hold
      · trivial
    · exact (h.holds j v hv).congr (create_other _ h.wellFormed htmp).1
        (create_content _ h.wellFormed htmp)
  · by_cases hpath : v.call.path = tmpPath w.call.path
    · by_cases hvoid : Void w.call
      · refine Or.inr ⟨hpath.trans hvoid.1.symm, ?_⟩
        rw [hpath, hcontent, hvoid.2]
      · exact absurd hpath (path_ne_tmp hprivate h hw hvoid hv)
    · exact Or.inl (create_content _ h.wellFormed hpath)

/-- Some bytes are written. -/
theorem inv_write (hprivate : Private calls) (h : Inv f calls s) (hw : s.2[i]? = some w)
    {file written : Nat} (hphase : w.phase = .writing file written)
    (hmore : written < w.call.data.length) (env : Env) :
    Inv f calls (s.1.write file written (chunk env w.call.data written),
      s.2.set i
        { w with phase := .writing file (written + (chunk env w.call.data written).length) }) := by
  have hhold := h.holds i w hw
  rw [Holds, hphase] at hhold
  obtain ⟨hfile, hcontent, hle⟩ := hhold
  have hvoid : ¬ Void w.call := by
    rintro ⟨-, hdata⟩
    rw [hdata] at hmore
    exact absurd hmore (Nat.not_lt_zero _)
  -- the bytes written so far, and those of this write
  have htake : w.call.data.take written ++ chunk env w.call.data written
      = w.call.data.take (written + (chunk env w.call.data written).length) := by
    rw [List.take_add, chunk, List.length_take, List.take_eq_take_min]
    simp [List.length_drop]
  have hlength : (w.call.data.take written).length = written := by
    rw [List.length_take, Nat.min_eq_left hle]
  refine inv_set h hw rfl Phase.noConfusion (write_wellFormed h.wellFormed ..) ⟨hfile, ?_, ?_⟩
    (fun j v hv hij => ?_) (fun v hv => Or.inl ?_)
  · rw [← htake, ← write_end hfile hcontent, hlength]
  · show written + (chunk env w.call.data written).length ≤ w.call.data.length
    rw [chunk, List.length_take, List.length_drop]
    omega
  · have htmp : tmpPath v.call.path ≠ tmpPath w.call.path :=
      fun htmp => hvoid (void_of_shared hprivate h hw hv hij htmp).1
    exact (h.holds j v hv).congr rfl (write_other h.wellFormed hfile htmp ..)
  · exact write_other h.wellFormed hfile (path_ne_tmp hprivate h hw hvoid hv) ..

/-- The temporary file is renamed to the path. -/
theorem inv_rename (hprivate : Private calls) (h : Inv f calls s) (hw : s.2[i]? = some w)
    (hphase : w.phase = .synced) :
    ∃ f', s.1.rename (tmpPath w.call.path) w.call.path = some f'
      ∧ Inv f calls (f', s.2.set i { w with phase := .done }) := by
  have hhold := h.holds i w hw
  rw [Holds, hphase] at hhold
  obtain ⟨file, hfile, hbytes⟩ := Option.map_eq_some_iff.mp hhold
  by_cases hself : w.call.path = tmpPath w.call.path
  · refine ⟨s.1, ?_, inv_still h hw rfl Phase.noConfusion trivial⟩
    rw [← hself]
    rw [← hself] at hfile
    exact rename_self hfile
  · obtain ⟨f', hrename, hbytes', hgone, hnew, hrest⟩ := rename_ne hfile (Ne.symm hself)
    have hvoid : ¬ Void w.call := fun hvoid => hself hvoid.1
    -- names other than the two have the content they had
    have hcontent : ∀ q, q ≠ tmpPath w.call.path → q ≠ w.call.path →
        f'.content q = s.1.content q := by
      intro q hq hq'
      rw [Files.content, Files.content, hrest q hq hq', hbytes']
    refine ⟨f', hrename, inv_set h hw rfl Phase.noConfusion (rename_wellFormed h.wellFormed hrename)
      trivial (fun j v hv hij => ?_) (fun v hv => ?_)⟩
    · have htmp : tmpPath v.call.path ≠ tmpPath w.call.path :=
        fun htmp => hvoid (void_of_shared hprivate h hw hv hij htmp).1
      have hpath : tmpPath v.call.path ≠ w.call.path := by
        intro hpath
        apply htmp
        rw [← hpath, tmpPath_tmpPath]
      exact (h.holds j v hv).congr (hrest _ htmp hpath) (hcontent _ htmp hpath)
    · by_cases hpath : v.call.path = w.call.path
      · refine Or.inr ⟨hpath, ?_⟩
        rw [hpath, content_of_file hnew, hbytes', hbytes]
      · exact Or.inl (hcontent _ (path_ne_tmp hprivate h hw hvoid hv) hpath)

/-- Every step of every call keeps the invariant. -/
theorem inv_step (hprivate : Private calls) (h : Inv f calls s) (a : Nat × Env) :
    Inv f calls (stepAt Writer.step s a) := by
  cases hw : s.2[a.1]? with
  | none =>
      rw [stepAt_none Writer.step hw]
      exact h
  | some w =>
      have hhold := h.holds a.1 w hw
      rw [Holds] at hhold
      cases hphase : w.phase with
      | begin =>
          cases hfault : a.2.fault with
          | true =>
              have hstep : w.step a.2 s.1 = (s.1, [{ w with phase := .faulted }]) := by
                simp [Writer.step, hphase, hfault]
              rw [stepAt_one Writer.step hw hstep]
              exact inv_still h hw rfl Phase.noConfusion trivial
          | false =>
              have hstep : w.step a.2 s.1 = ((s.1.create (tmpPath w.call.path)).1,
                  [{ w with phase := .writing (s.1.create (tmpPath w.call.path)).2 0 }]) := by
                simp [Writer.step, hphase, hfault]
              rw [stepAt_one Writer.step hw hstep]
              exact inv_create hprivate h hw
      | writing file written =>
          by_cases hmore : written < w.call.data.length
          · cases hfault : a.2.fault with
            | true =>
                have hstep : w.step a.2 s.1 = (s.1, [{ w with phase := .faulted }]) := by
                  simp [Writer.step, hphase, hmore, hfault]
                rw [stepAt_one Writer.step hw hstep]
                exact inv_still h hw rfl Phase.noConfusion trivial
            | false =>
                have hstep : w.step a.2 s.1
                    = (s.1.write file written (chunk a.2 w.call.data written),
                      [{ w with phase :=
                        .writing file (written + (chunk a.2 w.call.data written).length) }]) := by
                  simp [Writer.step, hphase, hmore, hfault]
                rw [stepAt_one Writer.step hw hstep]
                exact inv_write hprivate h hw hphase hmore a.2
          · have hstep : w.step a.2 s.1 = (s.1, [{ w with phase := .synced }]) := by
              simp [Writer.step, hphase, hmore]
            rw [hphase] at hhold
            obtain ⟨-, hcontent, -⟩ := hhold
            rw [List.take_of_length_le (Nat.le_of_not_lt hmore)] at hcontent
            rw [stepAt_one Writer.step hw hstep]
            exact inv_still h hw rfl Phase.noConfusion hcontent
      | synced =>
          cases hfault : a.2.fault with
          | true =>
              have hstep : w.step a.2 s.1 = (s.1, [{ w with phase := .faulted }]) := by
                simp [Writer.step, hphase, hfault]
              rw [stepAt_one Writer.step hw hstep]
              exact inv_still h hw rfl Phase.noConfusion trivial
          | false =>
              obtain ⟨f', hrename, hafter⟩ := inv_rename hprivate h hw hphase
              have hstep : w.step a.2 s.1 = (f', [{ w with phase := .done }]) := by
                simp [Writer.step, hphase, hfault, hrename]
              rw [stepAt_one Writer.step hw hstep]
              exact hafter
      | done | faulted =>
          have hstep : w.step a.2 s.1 = (s.1, [w]) := by simp [Writer.step, hphase]
          rw [stepAt_one Writer.step hw hstep]
          refine inv_still h hw rfl ?_ (h.holds a.1 w hw)
          rw [hphase]
          exact Phase.noConfusion
      | missing =>
          rw [hphase] at hhold
          exact hhold.elim

end Step

theorem inv_concurrently {f : Files String} (hf : f.WellFormed) (calls : List Call) :
    Inv f calls (concurrently f calls) := by
  refine ⟨hf, ?_, fun i w hw => ?_, fun w _ => Or.inl rfl⟩
  · rw [concurrently, List.map_map]
    exact List.map_id' calls
  · rw [concurrently, List.getElem?_map] at hw
    obtain ⟨call, -, rfl⟩ := Option.map_eq_some_iff.mp hw
    trivial

theorem atomic_of_private {calls : List Call} (hprivate : Private calls) : Atomic calls := by
  intro f hf as w hw
  have hinv : Inv f calls (afterSteps f calls as) :=
    run_invariant (stepAt Writer.step) (fun s a (h : Inv f calls s) => inv_step hprivate h a) as _
      (inv_concurrently hf calls)
  refine ⟨hinv.whole w hw, fun hphase => ?_⟩
  obtain ⟨i, hi⟩ := List.mem_iff_getElem?.mp hw
  have hhold := hinv.holds i w hi
  rw [Holds, hphase] at hhold
  exact hhold

/-! ## Calls that share a temporary file are not -/

def noFault (taken : Nat) : Env := ⟨false, taken⟩

theorem noFault_chunk (data : List UInt8) : chunk (noFault data.length) data 0 = data := by
  rw [chunk, List.drop_zero]
  exact List.take_of_length_le (Nat.le_succ _)

/-- One step of the call at a position, seen in the pool with that position set. -/
theorem stepAt_set {f f' : Files String} {ws : List Writer} {i : Nat} {w w' : Writer}
    (hlt : i < ws.length) {env : Env} (hstep : w.step env f = (f', [w'])) :
    stepAt Writer.step (f, ws.set i w) (i, env) = (f', ws.set i w') := by
  have hw : (ws.set i w)[i]? = some w := List.getElem?_set_self hlt
  have hone := @stepAt_one _ _ _ Writer.step (f, ws.set i w) (i, env) w w' f' hw hstep
  rw [hone, List.set_set]

/-- A call left alone comes to its rename, with its temporary file there. -/
theorem reaches_rename {f : Files String} {ws : List Writer} {i : Nat} {call : Call}
    (hw : ws[i]? = some ⟨call, .begin⟩) :
    ∃ as f' file, run (stepAt Writer.step) (f, ws) as = (f', ws.set i ⟨call, .synced⟩)
      ∧ f'.file (tmpPath call.path) = some file := by
  obtain ⟨hlt, -⟩ := List.getElem?_eq_some_iff.mp hw
  obtain ⟨created, file, hcreated⟩ : ∃ created file,
      f.create (tmpPath call.path) = (created, file) := ⟨_, _, rfl⟩
  have hfile : created.file (tmpPath call.path) = some file := by
    have hself := (@create_self _ _ f (tmpPath call.path)).1
    rwa [hcreated] at hself
  have hcreate : stepAt Writer.step (f, ws) (i, noFault 0)
      = (created, ws.set i ⟨call, .writing file 0⟩) := by
    refine stepAt_one Writer.step hw ?_
    simp [Writer.step, noFault, hcreated]
  by_cases hdata : 0 < call.data.length
  · -- one write takes everything
    have hwrite : stepAt Writer.step (created, ws.set i ⟨call, .writing file 0⟩)
        (i, noFault call.data.length)
        = (created.write file 0 call.data, ws.set i ⟨call, .writing file call.data.length⟩) := by
      refine stepAt_set hlt ?_
      simp only [Writer.step, if_pos hdata, noFault_chunk, Nat.zero_add]
      rfl
    have hsync : stepAt Writer.step
        (created.write file 0 call.data, ws.set i ⟨call, .writing file call.data.length⟩)
        (i, noFault 0) = (created.write file 0 call.data, ws.set i ⟨call, .synced⟩) := by
      refine stepAt_set hlt ?_
      simp [Writer.step]
    refine ⟨[(i, noFault 0), (i, noFault call.data.length), (i, noFault 0)],
      created.write file 0 call.data, file, ?_, hfile⟩
    rw [run_cons, run_cons, run_cons, hcreate, hwrite, hsync, run_nil]
  · have hsync : stepAt Writer.step (created, ws.set i ⟨call, .writing file 0⟩) (i, noFault 0)
        = (created, ws.set i ⟨call, .synced⟩) := by
      refine stepAt_set hlt ?_
      simp only [Writer.step, if_neg hdata]
    refine ⟨[(i, noFault 0), (i, noFault 0)], created, file, ?_, hfile⟩
    rw [run_cons, run_cons, hcreate, hsync, run_nil]

/-- Two calls with one temporary file, one of which renames it to another name: the
    other finds it gone. -/
theorem missing_of_shared {calls : List Call} {i j : Nat} {call other : Call}
    (hi : calls[i]? = some call) (hj : calls[j]? = some other) (hij : j ≠ i)
    (hpath : call.path ≠ tmpPath call.path)
    (htmp : tmpPath other.path = tmpPath call.path) (f : Files String) :
    ∃ as, ∃ w ∈ (afterSteps f calls as).2, w.phase = .missing := by
  have hbegin : ∀ {k : Nat} {c : Call}, calls[k]? = some c →
      (calls.map (fun call => (⟨call, .begin⟩ : Writer)))[k]? = some ⟨c, .begin⟩ := by
    intro k c hk
    rw [List.getElem?_map, hk]
    rfl
  -- the other call comes to its rename, then this one
  obtain ⟨as₁, f₁, -, hrun₁, -⟩ := @reaches_rename f _ j other (hbegin hj)
  have hi₁ : ((calls.map (fun call => (⟨call, .begin⟩ : Writer))).set j ⟨other, .synced⟩)[i]?
      = some ⟨call, .begin⟩ := by
    rw [List.getElem?_set_ne hij, hbegin hi]
  obtain ⟨as₂, f₂, file, hrun₂, hfile⟩ := @reaches_rename f₁ _ i call hi₁
  obtain ⟨f₃, hrename, -, hgone, -⟩ := rename_ne hfile (Ne.symm hpath)
  refine ⟨as₁ ++ (as₂ ++ [(i, noFault 0), (j, noFault 0)]), ⟨other, .missing⟩, ?_, rfl⟩
  rw [afterSteps, run_append, concurrently, hrun₁, run_append, hrun₂, run_cons, run_cons, run_nil]
  generalize hws : (calls.map (fun call => (⟨call, .begin⟩ : Writer))).set j ⟨other, .synced⟩ = ws
    at hi₁ ⊢
  have hj₁ : ws[j]? = some ⟨other, .synced⟩ := by
    obtain ⟨hlt, -⟩ := List.getElem?_eq_some_iff.mp (hbegin hj)
    rw [← hws, List.getElem?_set_self hlt]
  obtain ⟨hlt, -⟩ := List.getElem?_eq_some_iff.mp hi₁
  have hthis : stepAt Writer.step (f₂, ws.set i ⟨call, .synced⟩) (i, noFault 0)
      = (f₃, ws.set i ⟨call, .done⟩) := by
    refine stepAt_set hlt ?_
    simp [Writer.step, noFault, hrename]
  have hj₂ : (ws.set i ⟨call, .done⟩)[j]? = some ⟨other, .synced⟩ := by
    rw [List.getElem?_set_ne (Ne.symm hij), hj₁]
  have hother : stepAt Writer.step (f₃, ws.set i ⟨call, .done⟩) (j, noFault 0)
      = (f₃, (ws.set i ⟨call, .done⟩).set j ⟨other, .missing⟩) := by
    refine stepAt_one Writer.step hj₂ ?_
    simp [Writer.step, noFault, htmp, rename_missing hgone]
  rw [hthis, hother]
  obtain ⟨hltj, -⟩ := List.getElem?_eq_some_iff.mp hj₂
  exact List.mem_of_getElem? (List.getElem?_set_self hltj)

/-- A call that writes something to its own temporary path empties it first. -/
theorem torn_of_own_path {calls : List Call} {i : Nat} {call : Call}
    (hi : calls[i]? = some call) (hpath : call.path = tmpPath call.path)
    (hatomic : Atomic calls) : call.data = [] := by
  -- the path holds one byte
  obtain ⟨f, hf, hcontent, hfile⟩ : ∃ f : Files String, f.WellFormed
      ∧ f.content call.path = some [0] ∧ f.file call.path = some 0 := by
    refine ⟨⟨fun p => if p = call.path then some 0 else none, fun _ => [0], 1⟩, ⟨?_, ?_⟩, ?_, ?_⟩
    · intro p k hp
      simp only [Option.ite_none_right_eq_some, Option.some.injEq] at hp
      rw [← hp.2]
      exact Nat.one_pos
    · intro p q k hp hq
      simp only [Option.ite_none_right_eq_some] at hp hq
      rw [hp.1, hq.1]
    · simp [Files.content]
    · simp
  have hw : (calls.map (fun call => (⟨call, .begin⟩ : Writer)))[i]? = some ⟨call, .begin⟩ := by
    rw [List.getElem?_map, hi]
    rfl
  obtain ⟨hlt, -⟩ := List.getElem?_eq_some_iff.mp hw
  have hstep : afterSteps f calls [(i, noFault 0)]
      = ((f.create (tmpPath call.path)).1,
        (calls.map (fun call => (⟨call, .begin⟩ : Writer))).set i
          ⟨call, .writing (f.create (tmpPath call.path)).2 0⟩) := by
    rw [afterSteps, run_cons, run_nil]
    exact stepAt_one Writer.step hw rfl
  have hempty : (f.create (tmpPath call.path)).1.content call.path = some [] := by
    obtain ⟨hself, hnil⟩ := @create_self _ _ f (tmpPath call.path)
    rw [hpath, tmpPath_tmpPath, content_of_file hself, hnil]
  have hsafe := hatomic f hf [(i, noFault 0)]
  rw [hstep] at hsafe
  obtain ⟨hwhole, -⟩ := hsafe ⟨call, .writing (f.create (tmpPath call.path)).2 0⟩
    (List.mem_of_getElem? (List.getElem?_set_self hlt))
  rcases hwhole with hbefore | ⟨w, hmem, hbegun, -, hdata⟩
  · rw [hempty, hcontent] at hbefore
    exact absurd hbefore (by decide)
  · -- only this call was begun
    rcases List.mem_or_eq_of_mem_set hmem with hold | rfl
    · obtain ⟨c, -, rfl⟩ := List.mem_map.mp hold
      exact absurd rfl hbegun
    · rw [hempty] at hdata
      exact (Option.some.inj hdata).symm

def emptyDir : Files String := ⟨fun _ => none, fun _ => [], 0⟩

theorem emptyDir_wellFormed : emptyDir.WellFormed :=
  ⟨fun _ _ h => (nomatch h), fun _ _ _ h => (nomatch h)⟩

/-- **CONCURRENT WRITES ARE ATOMIC** exactly when every call has its temporary file
    to itself. -/
theorem atomic_iff_private (calls : List Call) : Atomic calls ↔ Private calls := by
  refine ⟨fun hatomic i call hi => ?_, atomic_of_private⟩
  by_cases hpath : call.path = tmpPath call.path
  · exact Or.inr ⟨hpath, torn_of_own_path hi hpath hatomic⟩
  · refine Or.inl ⟨hpath, fun j other hj hij htmp => ?_⟩
    obtain ⟨as, w, hw, hmissing⟩ := missing_of_shared hi hj hij hpath htmp emptyDir
    exact (hatomic _ emptyDir_wellFormed as w hw).2 hmissing

/-- Two persists of one manifest. -/
def twoPersists : List Call := [⟨"manifest.json", [1, 2]⟩, ⟨"manifest.json", [3]⟩]

/-- The second one creates the temporary file between two writes of the first. -/
def tornWrite : List (Nat × Env) :=
  [(0, noFault 0), (0, noFault 0), (1, noFault 0), (0, noFault 0), (0, noFault 0), (0, noFault 0)]

/-- The manifest holds neither value, and then the second call fails. -/
theorem manifest_torn :
    (afterSteps emptyDir twoPersists tornWrite).1.content "manifest.json" = some [0, 2]
      ∧ (afterSteps emptyDir twoPersists
          (tornWrite ++ [(1, noFault 0), (1, noFault 0), (1, noFault 0)])).2.map (·.phase)
        = [.done, .missing]
      ∧ ¬ Atomic twoPersists := by
  have hmissing : (afterSteps emptyDir twoPersists
      (tornWrite ++ [(1, noFault 0), (1, noFault 0), (1, noFault 0)])).2[1]?
        = some ⟨⟨"manifest.json", [3]⟩, .missing⟩ := by decide +kernel
  refine ⟨by decide +kernel, by decide +kernel, fun hatomic => ?_⟩
  exact (hatomic emptyDir emptyDir_wellFormed _ _ (List.mem_of_getElem? hmissing)).2 rfl

end DevstackAtomicWrite
