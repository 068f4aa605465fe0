import Mathlib.Logic.Function.Basic

/-! # Files — names, and the files they name

    A directory of names; a file that was opened stays the same file when its name
    is given to another one, so a writer goes on writing into the file it opened.
    `content` is what a reader of a name sees.

    In a well-formed directory no file has two names, so that a write is seen under
    one name only. -/

namespace DevstackFiles

variable {π : Type}

/-- A directory: the file of every name, the bytes of every file, the next file. -/
structure Files (π : Type) where
  file : π → Option Nat
  bytes : Nat → List UInt8
  next : Nat

/-- What a reader of a name sees. -/
def Files.content (f : Files π) (p : π) : Option (List UInt8) := (f.file p).map f.bytes

structure Files.WellFormed (f : Files π) : Prop where
  made : ∀ p i, f.file p = some i → i < f.next
  apart : ∀ p q i, f.file p = some i → f.file q = some i → p = q

/-- Bytes written at an offset; a gap before it is filled with zeros. -/
def overwrite (bytes : List UInt8) (offset : Nat) (chunk : List UInt8) : List UInt8 :=
  (bytes ++ List.replicate (offset - bytes.length) 0).take offset ++ chunk
    ++ bytes.drop (offset + chunk.length)

/-- A write through an open file. -/
def Files.write (f : Files π) (i offset : Nat) (chunk : List UInt8) : Files π :=
  { f with bytes := Function.update f.bytes i (overwrite (f.bytes i) offset chunk) }

/-- A chunk appended at the end. -/
theorem overwrite_end (bytes chunk : List UInt8) :
    overwrite bytes bytes.length chunk = bytes ++ chunk := by
  rw [overwrite, Nat.sub_self, List.replicate_zero, List.append_nil, List.take_length,
    List.drop_eq_nil_of_le (Nat.le_add_right _ _), List.append_nil]

/-- A write keeps the directory. -/
theorem write_wellFormed {f : Files π} (hf : f.WellFormed) (i offset : Nat)
    (chunk : List UInt8) : (f.write i offset chunk).WellFormed := ⟨hf.made, hf.apart⟩

theorem content_of_file {f : Files π} {p : π} {i : Nat} (h : f.file p = some i) :
    f.content p = some (f.bytes i) := by
  rw [Files.content, h, Option.map_some]

/-- A write is seen under the name of its file only. -/
theorem write_other {f : Files π} (hf : f.WellFormed) {p q : π} {i : Nat}
    (hget : f.file p = some i) (hne : q ≠ p) (offset : Nat) (chunk : List UInt8) :
    (f.write i offset chunk).content q = f.content q := by
  rw [Files.content, Files.content]
  cases hq : f.file q with
  | none => exact (congrArg (Option.map _) hq).trans rfl
  | some j =>
      have hij : j ≠ i := fun heq => hne (hf.apart q p i (heq ▸ hq) hget)
      refine (congrArg (Option.map _) hq).trans ?_
      exact congrArg some (Function.update_of_ne hij _ _)

/-- A write at the end of the file appends. -/
theorem write_end {f : Files π} {p : π} {i : Nat} {bytes : List UInt8}
    (hget : f.file p = some i) (hbytes : f.content p = some bytes) (chunk : List UInt8) :
    (f.write i bytes.length chunk).content p = some (bytes ++ chunk) := by
  rw [content_of_file hget] at hbytes
  have hfile : (f.write i bytes.length chunk).file p = some i := hget
  rw [content_of_file hfile, ← overwrite_end, ← Option.some.inj hbytes]
  exact congrArg some (Function.update_self ..)

variable [DecidableEq π]

/-- Open for writing: an existing file is emptied, a missing one is made. -/
def Files.create (f : Files π) (p : π) : Files π × Nat :=
  match f.file p with
  | some i => ({ f with bytes := Function.update f.bytes i [] }, i)
  | none =>
      ({ file := Function.update f.file p (some f.next)
         bytes := Function.update f.bytes f.next []
         next := f.next + 1 }, f.next)

/-- The file of one name gets another, which no longer names what it named. -/
def Files.rename (f : Files π) (p q : π) : Option (Files π) :=
  (f.file p).map (fun i =>
    if p = q then f
    else { f with file := Function.update (Function.update f.file q (some i)) p none })

section Create

variable {f : Files π} (p : π)

theorem create_existing {i : Nat} (hget : f.file p = some i) :
    f.create p = ({ f with bytes := Function.update f.bytes i [] }, i) := by
  rw [Files.create, hget]

theorem create_missing (hget : f.file p = none) :
    f.create p
      = (⟨Function.update f.file p (some f.next), Function.update f.bytes f.next [], f.next + 1⟩,
        f.next) := by
  rw [Files.create, hget]

/-- The name now names the opened file, which is empty. -/
theorem create_self : (f.create p).1.file p = some (f.create p).2
    ∧ (f.create p).1.bytes (f.create p).2 = [] := by
  cases hget : f.file p with
  | some i =>
      rw [create_existing p hget]
      exact ⟨hget, Function.update_self ..⟩
  | none =>
      rw [create_missing p hget]
      exact ⟨Function.update_self .., Function.update_self ..⟩

variable (hf : f.WellFormed)

include hf

theorem create_wellFormed : (f.create p).1.WellFormed := by
  cases hget : f.file p with
  | some i =>
      rw [create_existing p hget]
      exact ⟨hf.made, hf.apart⟩
  | none =>
      rw [create_missing p hget]
      refine ⟨fun q i hq => ?_, fun q q' i hq hq' => ?_⟩ <;> dsimp only at *
      · by_cases heq : q = p
        · subst heq
          rw [Function.update_self] at hq
          cases hq
          exact Nat.lt_succ_self _
        · rw [Function.update_of_ne heq] at hq
          exact Nat.lt_succ_of_lt (hf.made q i hq)
      · -- the new file is none of the old ones
        have hnew : ∀ r, r ≠ p → Function.update f.file p (some f.next) r ≠ some f.next := by
          intro r hr hget
          rw [Function.update_of_ne hr] at hget
          exact absurd (hf.made r _ hget) (Nat.lt_irrefl _)
        by_cases heq : q = p
        · subst heq
          rw [Function.update_self] at hq
          cases hq
          by_contra hne
          exact hnew q' (Ne.symm hne) hq'
        · by_cases heq' : q' = p
          · subst heq'
            rw [Function.update_self] at hq'
            cases hq'
            exact absurd hq (hnew q heq)
          · rw [Function.update_of_ne heq] at hq
            rw [Function.update_of_ne heq'] at hq'
            exact hf.apart q q' i hq hq'

/-- Other names name what they named, with the same bytes. -/
theorem create_other {q : π} (hne : q ≠ p) :
    (f.create p).1.file q = f.file q
      ∧ ∀ i, f.file q = some i → (f.create p).1.bytes i = f.bytes i := by
  cases hget : f.file p with
  | some j =>
      rw [create_existing p hget]
      refine ⟨rfl, fun i hq => Function.update_of_ne ?_ _ _⟩
      rintro rfl
      exact hne (hf.apart q p _ hq hget)
  | none =>
      rw [create_missing p hget]
      refine ⟨Function.update_of_ne hne _ _, fun i hq => Function.update_of_ne ?_ _ _⟩
      rintro rfl
      exact absurd (hf.made q _ hq) (Nat.lt_irrefl _)

theorem create_content {q : π} (hne : q ≠ p) : (f.create p).1.content q = f.content q := by
  obtain ⟨hfile, hbytes⟩ := create_other p hf hne
  rw [Files.content, Files.content, hfile]
  cases hq : f.file q with
  | none => rfl
  | some i => exact congrArg some (hbytes i hq)

end Create

section Rename

variable {f f' : Files π} {p q : π}

theorem rename_wellFormed (hf : f.WellFormed) (h : f.rename p q = some f') : f'.WellFormed := by
  rw [Files.rename] at h
  obtain ⟨i, hget, h⟩ := Option.map_eq_some_iff.mp h
  by_cases hpq : p = q
  · rw [if_pos hpq] at h
    exact h ▸ hf
  · rw [if_neg hpq] at h
    subst h
    -- what a name names afterwards, it named before, or it is the new name
    have hback : ∀ r j, Function.update (Function.update f.file q (some i)) p none r = some j →
        (r = q ∧ j = i) ∨ (r ≠ q ∧ r ≠ p ∧ f.file r = some j) := by
      intro r j hr
      by_cases hrp : r = p
      · subst hrp
        rw [Function.update_self] at hr
        exact nomatch hr
      · rw [Function.update_of_ne hrp] at hr
        by_cases hrq : r = q
        · subst hrq
          rw [Function.update_self] at hr
          exact Or.inl ⟨rfl, (Option.some.inj hr).symm⟩
        · rw [Function.update_of_ne hrq] at hr
          exact Or.inr ⟨hrq, hrp, hr⟩
    refine ⟨fun r j hr => ?_, fun r r' j hr hr' => ?_⟩
    · rcases hback r j hr with ⟨-, rfl⟩ | ⟨-, -, hold⟩
      · exact hf.made p j hget
      · exact hf.made r j hold
    · rcases hback r j hr with ⟨rfl, rfl⟩ | ⟨-, hrp, hold⟩
      · rcases hback r' j hr' with ⟨rfl, -⟩ | ⟨-, hrp', hold'⟩
        · rfl
        · exact absurd (hf.apart r' p j hold' hget) hrp'
      · rcases hback r' j hr' with ⟨-, rfl⟩ | ⟨-, -, hold'⟩
        · exact absurd (hf.apart r p j hold hget) hrp
        · exact hf.apart r r' j hold hold'

/-- A rename to another name: the old name is free, the new one names its file. -/
theorem rename_ne {i : Nat} (hget : f.file p = some i) (hne : p ≠ q) :
    ∃ f', f.rename p q = some f' ∧ f'.bytes = f.bytes ∧ f'.file p = none ∧ f'.file q = some i
      ∧ ∀ r, r ≠ p → r ≠ q → f'.file r = f.file r := by
  refine ⟨{ f with file := Function.update (Function.update f.file q (some i)) p none }, ?_, rfl,
    Function.update_self .., ?_, fun r hrp hrq => ?_⟩
  · rw [Files.rename, hget, Option.map_some, if_neg hne]
  · exact (Function.update_of_ne (Ne.symm hne) ..).trans (Function.update_self ..)
  · exact (Function.update_of_ne hrp ..).trans (Function.update_of_ne hrq ..)

theorem rename_self {i : Nat} (hget : f.file p = some i) : f.rename p p = some f := by
  rw [Files.rename, hget, Option.map_some, if_pos rfl]

theorem rename_missing (hget : f.file p = none) : f.rename p q = none := by
  rw [Files.rename, hget, Option.map_none]

end Rename

end DevstackFiles
