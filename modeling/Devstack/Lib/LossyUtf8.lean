import Devstack.Lib.Lines
import Mathlib.Algebra.GroupWithZero.Nat

/-! # Lossy UTF-8 — decoding with replacement characters

    `String::from_utf8_lossy` as a scan: the longest well-formed sequences are
    characters, and each maximal prefix of one that is broken off (one to three
    bytes) becomes one U+FFFD.  The decoded text is the list of pieces; a piece
    knows its character, the bytes it was read from and the length of its
    character in the decoded string.

    Bytes below 0x80 stand for themselves in every state of the scan
    (`scan_append_ascii`), so cutting at line breaks commutes with decoding; and
    the decoded length is the number of bytes read exactly when every broken
    sequence is three bytes long (`strLen_scan_eq`). -/

namespace DevstackLossyUtf8

open DevstackLines

/-- One decoded character, with the bytes it was read from. -/
inductive Piece where
  | valid (bytes : List UInt8)
  | broken (bytes : List UInt8)
  deriving DecidableEq, Repr

def Piece.raw : Piece → List UInt8
  | .valid bytes => bytes
  | .broken bytes => bytes

/-- The code point of a well-formed sequence. -/
def codePoint : List UInt8 → Nat
  | [a] => a.toNat
  | [a, b] => a.toNat % 32 * 64 + b.toNat % 64
  | [a, b, c] => (a.toNat % 16 * 64 + b.toNat % 64) * 64 + c.toNat % 64
  | [a, b, c, d] =>
      ((a.toNat % 8 * 64 + b.toNat % 64) * 64 + c.toNat % 64) * 64 + d.toNat % 64
  | _ => 0xFFFD

def Piece.char : Piece → Char
  | .valid bytes => Char.ofNat (codePoint bytes)
  | .broken _ => '\uFFFD'

/-- The length in bytes of the piece in the decoded string. -/
def Piece.strLen : Piece → Nat
  | .valid bytes => bytes.length
  | .broken _ => 3

/-- A well-formed prefix that waits for its next byte, in `lo ..= hi`, and for
    `more` continuation bytes after it. -/
structure Pending where
  seen : List UInt8
  more : Nat
  lo : UInt8
  hi : UInt8
  room : seen.length + more ≤ 3
  high : 0x80 ≤ lo

/-- A scan that is between characters takes a byte. -/
def start (b : UInt8) : Option Pending × List Piece :=
  if b < 0x80 then (none, [.valid [b]])
  else if 0xC2 ≤ b ∧ b ≤ 0xDF then (some ⟨[b], 0, 0x80, 0xBF, by simp, by decide⟩, [])
  else if b = 0xE0 then (some ⟨[b], 1, 0xA0, 0xBF, by simp, by decide⟩, [])
  else if 0xE1 ≤ b ∧ b ≤ 0xEC then (some ⟨[b], 1, 0x80, 0xBF, by simp, by decide⟩, [])
  else if b = 0xED then (some ⟨[b], 1, 0x80, 0x9F, by simp, by decide⟩, [])
  else if 0xEE ≤ b ∧ b ≤ 0xEF then (some ⟨[b], 1, 0x80, 0xBF, by simp, by decide⟩, [])
  else if b = 0xF0 then (some ⟨[b], 2, 0x90, 0xBF, by simp, by decide⟩, [])
  else if 0xF1 ≤ b ∧ b ≤ 0xF3 then (some ⟨[b], 2, 0x80, 0xBF, by simp, by decide⟩, [])
  else if b = 0xF4 then (some ⟨[b], 2, 0x80, 0x8F, by simp, by decide⟩, [])
  else (none, [.broken [b]])

/-- One more byte; a byte that does not fit breaks the prefix off and is read again. -/
def feed : Option Pending → UInt8 → Option Pending × List Piece
  | none, b => start b
  | some p, b =>
      if p.lo ≤ b ∧ b ≤ p.hi then
        match h : p.more with
        | 0 => (none, [.valid (p.seen ++ [b])])
        | more + 1 =>
            (some ⟨p.seen ++ [b], more, 0x80, 0xBF,
              by have := p.room; rw [List.length_append, List.length_singleton]; omega,
              by decide⟩, [])
      else ((start b).1, .broken p.seen :: (start b).2)

/-- What the end of the input makes of the state. -/
def flush : Option Pending → List Piece
  | none => []
  | some p => [.broken p.seen]

def scanFrom : Option Pending → List UInt8 → List Piece
  | st, [] => flush st
  | st, b :: bs => (feed st b).2 ++ scanFrom (feed st b).1 bs

/-- `String::from_utf8_lossy`. -/
def scan (bs : List UInt8) : List Piece := scanFrom none bs

/-- `str::len` of a decoded text. -/
def strLen (text : List Piece) : Nat := (text.map Piece.strLen).sum

/-- The characters of a decoded text. -/
def chars (text : List Piece) : List Char := text.map Piece.char

/-- The piece of an ASCII byte. -/
def ascii (b : UInt8) : Piece := .valid [b]

def Piece.isValid : Piece → Bool
  | .valid _ => true
  | .broken _ => false

/-- `str::from_utf8` succeeds. -/
def isUtf8 (bs : List UInt8) : Bool := (scan bs).all Piece.isValid

@[simp] theorem scan_nil : scan [] = [] := rfl

/-! ## ASCII bytes -/

theorem feed_ascii (st : Option Pending) {b : UInt8} (hb : b < 0x80) :
    feed st b = (none, flush st ++ [ascii b]) := by
  have hstart : start b = (none, [ascii b]) := by rw [start, if_pos hb]; rfl
  cases st with
  | none => exact hstart
  | some p =>
      have hlo : ¬ (p.lo ≤ b ∧ b ≤ p.hi) := by
        rintro ⟨hle, -⟩
        exact absurd (UInt8.le_trans p.high hle) (UInt8.not_le.mpr hb)
      rw [feed, if_neg hlo, hstart]; rfl

theorem scanFrom_append_ascii (st : Option Pending) (as bs : List UInt8) {c : UInt8}
    (hc : c < 0x80) :
    scanFrom st (as ++ c :: bs) = scanFrom st as ++ ascii c :: scan bs := by
  induction as generalizing st with
  | nil =>
      show (feed st c).2 ++ scanFrom (feed st c).1 bs = _
      rw [feed_ascii st hc]
      show (flush st ++ [ascii c]) ++ scan bs = flush st ++ ascii c :: scan bs
      rw [List.append_assoc]; rfl
  | cons a as ih =>
      show (feed st a).2 ++ scanFrom (feed st a).1 (as ++ c :: bs) = _
      rw [ih, ← List.append_assoc]; rfl

/-- An ASCII byte cuts the scan in two. -/
theorem scan_append_ascii (as bs : List UInt8) {c : UInt8} (hc : c < 0x80) :
    scan (as ++ c :: bs) = scan as ++ ascii c :: scan bs :=
  scanFrom_append_ascii none as bs hc

/-- Text is valid if it is on both sides of an ASCII byte. -/
theorem isUtf8_append_ascii (as bs : List UInt8) {c : UInt8} (hc : c < 0x80) :
    isUtf8 (as ++ c :: bs) = (isUtf8 as && isUtf8 bs) := by
  rw [isUtf8, scan_append_ascii as bs hc, List.all_append, List.all_cons]
  rfl

/-! ## The bytes read -/

/-- The bytes a state holds back. -/
def held : Option Pending → List UInt8
  | none => []
  | some p => p.seen

theorem raw_start (b : UInt8) :
    (start b).2.flatMap Piece.raw ++ held (start b).1 = [b] := by
  rw [start]
  repeat' split
  all_goals rfl

theorem raw_feed (st : Option Pending) (b : UInt8) :
    (feed st b).2.flatMap Piece.raw ++ held (feed st b).1 = held st ++ [b] := by
  cases st with
  | none => exact raw_start b
  | some p =>
      rw [feed]
      split
      · split
        · simp [held, Piece.raw]
        · simp [held]
      · show p.seen ++ (start b).2.flatMap Piece.raw ++ held (start b).1 = p.seen ++ [b]
        rw [List.append_assoc, raw_start]

theorem raw_scanFrom (st : Option Pending) (bs : List UInt8) :
    (scanFrom st bs).flatMap Piece.raw = held st ++ bs := by
  induction bs generalizing st with
  | nil =>
      cases st with
      | none => rfl
      | some p => simp [scanFrom, flush, held, Piece.raw]
  | cons b bs ih =>
      show ((feed st b).2 ++ scanFrom (feed st b).1 bs).flatMap Piece.raw = _
      rw [List.flatMap_append, ih, ← List.append_assoc, raw_feed, List.append_assoc]; rfl

/-- The pieces were read from exactly the bytes of the input. -/
theorem raw_scan (bs : List UInt8) : (scan bs).flatMap Piece.raw = bs :=
  raw_scanFrom none bs

theorem ascii_mem_scan {c : UInt8} {bs : List UInt8} (h : ascii c ∈ scan bs) : c ∈ bs := by
  rw [← raw_scan bs, List.mem_flatMap]
  exact ⟨ascii c, h, List.mem_singleton.mpr rfl⟩

theorem scan_eq_nil {bs : List UInt8} : scan bs = [] ↔ bs = [] := by
  constructor
  · intro h
    rw [← raw_scan bs, h]; rfl
  · intro h
    rw [h]; rfl

/-! ## Lines -/

/-- **CUTTING COMMUTES WITH DECODING**: the lines of the decoded text are the
    decoded lines. -/
theorem lines_scan {c : UInt8} (hc : c < 0x80) (bs : List UInt8) :
    finished (ascii c) (scan bs) = (finished c bs).map scan
      ∧ rest (ascii c) (scan bs) = scan (rest c bs) := by
  induction bs using lines_induction c with
  | hrest bs hbs =>
      have hmem : ascii c ∉ scan bs := fun h => hbs (ascii_mem_scan h)
      rw [finished_of_not_mem c hbs, rest_of_not_mem c hbs, finished_of_not_mem _ hmem,
        rest_of_not_mem _ hmem]
      exact ⟨rfl, rfl⟩
  | hline as bs has ih =>
      have hmem : ascii c ∉ scan as := fun h => has (ascii_mem_scan h)
      rw [scan_append_ascii as bs hc, finished_append_cons, finished_append_cons,
        rest_append_cons, rest_append_cons, finished_of_not_mem c has, rest_of_not_mem c has,
        finished_of_not_mem _ hmem, rest_of_not_mem _ hmem, ih.1]
      exact ⟨rfl, ih.2⟩

/-- Dropping ASCII bytes at the end commutes with decoding. -/
theorem rdropWhile_scan (p : UInt8 → Bool) (q : Piece → Bool)
    (hp : ∀ b, p b = true → b < 0x80) (hq : ∀ x, q x = true ↔ ∃ b, p b = true ∧ x = ascii b)
    (bs : List UInt8) : (scan bs).rdropWhile q = scan (bs.rdropWhile p) := by
  induction bs using List.reverseRecOn with
  | nil => rfl
  | append_singleton bs b ih =>
      rw [List.rdropWhile_concat]
      by_cases hb : p b = true
      · have hscan : scan (bs ++ [b]) = scan bs ++ [ascii b] :=
          scan_append_ascii bs [] (hp b hb)
        rw [if_pos hb, hscan, List.rdropWhile_concat_pos _ _ _ ((hq _).mpr ⟨b, hb, rfl⟩), ih]
      · rw [if_neg hb]
        rcases List.eq_nil_or_concat (scan (bs ++ [b])) with hnil | ⟨xs, x, hxs⟩
        · rw [hnil]; rfl
        · rw [List.concat_eq_append] at hxs
          rw [hxs]
          refine List.rdropWhile_concat_neg _ _ _ ?_
          intro hx
          obtain ⟨c, hc, rfl⟩ := (hq x).mp hx
          have hraw : xs.flatMap Piece.raw ++ [c] = bs ++ [b] := by
            rw [← raw_scan (bs ++ [b]), hxs, List.flatMap_append]; rfl
          have hcb : c = b := by
            have := congrArg List.getLast? hraw
            simpa using this
          exact hb (hcb ▸ hc)

/-! ## Lengths -/

/-- Every broken sequence is three bytes long. -/
def ThreeByteBroken (bs : List UInt8) : Prop :=
  ∀ seq, Piece.broken seq ∈ scan bs → seq.length = 3

instance (bs : List UInt8) : Decidable (ThreeByteBroken bs) :=
  decidable_of_iff (∀ x ∈ scan bs, x.strLen = x.raw.length)
    ⟨fun h seq hseq => (h _ hseq).symm, fun h x hx => by
      cases x with
      | valid _ => rfl
      | broken seq => exact (h seq hx).symm⟩

theorem broken_start {b : UInt8} {seq : List UInt8} (h : Piece.broken seq ∈ (start b).2) :
    seq.length ≤ 3 := by
  rw [start] at h
  repeat' split at h
  all_goals simp_all

theorem broken_feed {st : Option Pending} {b : UInt8} {seq : List UInt8}
    (h : Piece.broken seq ∈ (feed st b).2) : seq.length ≤ 3 := by
  cases st with
  | none => exact broken_start h
  | some p =>
      rw [feed] at h
      split at h
      · split at h
        · exact nomatch List.mem_singleton.mp h
        · exact nomatch h
      · rcases List.mem_cons.mp h with heq | hmem
        · have := p.room
          rw [Piece.broken.inj heq]; omega
        · exact broken_start hmem

/-- A broken sequence has at most three bytes. -/
theorem broken_scanFrom {st : Option Pending} {bs seq : List UInt8}
    (h : Piece.broken seq ∈ scanFrom st bs) : seq.length ≤ 3 := by
  induction bs generalizing st with
  | nil =>
      cases st with
      | none => exact nomatch h
      | some p =>
          have := p.room
          rw [Piece.broken.inj (List.mem_singleton.mp h)]; omega
  | cons b bs ih =>
      rcases List.mem_append.mp h with h | h
      · exact broken_feed h
      · exact ih h

theorem strLen_append (xs ys : List Piece) : strLen (xs ++ ys) = strLen xs + strLen ys := by
  rw [strLen, List.map_append, List.sum_append]; rfl

private theorem strLen_cons (x : Piece) (xs : List Piece) :
    strLen (x :: xs) = x.strLen + strLen xs := rfl

/-- A text whose broken sequences have at most three bytes is at least as long
    as what it was read from, and as long exactly when they all have three. -/
theorem strLen_raw (xs : List Piece) (h : ∀ seq, Piece.broken seq ∈ xs → seq.length ≤ 3) :
    (xs.flatMap Piece.raw).length ≤ strLen xs
      ∧ (strLen xs = (xs.flatMap Piece.raw).length
          ↔ ∀ seq, Piece.broken seq ∈ xs → seq.length = 3) := by
  induction xs with
  | nil => exact ⟨Nat.le_refl _, by simp [strLen]⟩
  | cons x xs ih =>
      obtain ⟨hle, hiff⟩ := ih (fun seq hs => h seq (List.mem_cons_of_mem x hs))
      rw [List.flatMap_cons, List.length_append, strLen_cons]
      cases x with
      | valid bytes =>
          refine ⟨Nat.add_le_add_left hle _, ?_⟩
          have hcancel : (Piece.valid bytes).strLen + strLen xs
                = (Piece.valid bytes).raw.length + (xs.flatMap Piece.raw).length
              ↔ strLen xs = (xs.flatMap Piece.raw).length :=
            Nat.add_left_cancel_iff
          rw [hcancel, hiff]
          simp
      | broken bytes =>
          have hb : bytes.length ≤ 3 := h bytes List.mem_cons_self
          show bytes.length + _ ≤ 3 + _ ∧ (3 + _ = bytes.length + _ ↔ _)
          refine ⟨by omega, ?_⟩
          constructor
          · intro heq seq hseq
            have hthree : bytes.length = 3 := by omega
            rcases List.mem_cons.mp hseq with hs | hs
            · rw [Piece.broken.inj hs]; exact hthree
            · exact hiff.mp (by omega) seq hs
          · intro hall
            have hthree := hall bytes List.mem_cons_self
            have hrest := hiff.mpr (fun seq hs => hall seq (List.mem_cons_of_mem _ hs))
            omega

theorem strLen_scan_ge (bs : List UInt8) : bs.length ≤ strLen (scan bs) := by
  have h := (strLen_raw (scan bs) (fun _ hs => broken_scanFrom hs)).1
  rwa [raw_scan] at h

/-- **WHEN DECODING KEEPS THE LENGTH**: exactly when every broken sequence is
    three bytes long. -/
theorem strLen_scan_eq (bs : List UInt8) :
    strLen (scan bs) = bs.length ↔ ThreeByteBroken bs := by
  have h := (strLen_raw (scan bs) (fun _ hs => broken_scanFrom hs)).2
  rwa [raw_scan] at h

/-- Decoding valid UTF-8 keeps its length. -/
theorem strLen_of_isUtf8 {bytes : List UInt8} (h : isUtf8 bytes = true) :
    strLen (scan bytes) = bytes.length := by
  refine (strLen_scan_eq bytes).mpr ?_
  intro seq hseq
  exact nomatch List.all_eq_true.mp h _ hseq

/-! ## The longest valid prefix -/

/-- `Utf8Error::valid_up_to`, and the length of text that is valid. -/
def validUpTo (bs : List UInt8) : Nat :=
  (((scan bs).takeWhile Piece.isValid).flatMap Piece.raw).length

/-- What one byte does to the pieces: it is the last of a character, or it is kept, or
    something is broken off first. -/
theorem feed_cases (st : Option Pending) (b : UInt8) :
    (∃ bytes, feed st b = (none, [.valid bytes])) ∨ (∃ p, feed st b = (some p, []))
      ∨ ∃ seq rest, (feed st b).2 = .broken seq :: rest := by
  cases st with
  | none =>
      obtain ⟨next, hnext⟩ : ∃ next, start b = next := ⟨_, rfl⟩
      show (∃ bytes, start b = _) ∨ (∃ p, start b = _) ∨ ∃ seq rest, (start b).2 = _
      rw [hnext]
      rw [start] at hnext
      repeat' split at hnext
      all_goals subst hnext
      · exact Or.inl ⟨_, rfl⟩
      all_goals first
        | exact Or.inr (Or.inl ⟨_, rfl⟩)
        | exact Or.inr (Or.inr ⟨_, _, rfl⟩)
  | some p =>
      rw [feed]
      split
      · split
        · exact Or.inl ⟨_, rfl⟩
        · exact Or.inr (Or.inl ⟨_, rfl⟩)
      · exact Or.inr (Or.inr ⟨_, _, rfl⟩)

/-- The valid pieces that a scan begins with are the scan of a prefix. -/
theorem scanFrom_takeWhile (st : Option Pending) (bs : List UInt8)
    (h : (scanFrom st bs).takeWhile Piece.isValid ≠ []) :
    ∃ front rest, bs = front ++ rest
      ∧ scanFrom st front = (scanFrom st bs).takeWhile Piece.isValid := by
  induction bs generalizing st with
  | nil =>
      cases st with
      | none => exact absurd rfl h
      | some p => exact absurd rfl h
  | cons b bs ih =>
      rw [scanFrom] at h ⊢
      rcases feed_cases st b with ⟨bytes, hfeed⟩ | ⟨p, hfeed⟩ | ⟨seq, rest, hbroken⟩
      · rw [hfeed, List.singleton_append, List.takeWhile_cons_of_pos rfl]
        by_cases hnone : (scanFrom none bs).takeWhile Piece.isValid = []
        · refine ⟨[b], bs, rfl, ?_⟩
          rw [hnone, scanFrom, hfeed]
          rfl
        · obtain ⟨front, rest, rfl, hfront⟩ := ih none hnone
          refine ⟨b :: front, rest, rfl, ?_⟩
          rw [scanFrom, hfeed, List.singleton_append, hfront]
      · rw [hfeed, List.nil_append] at h ⊢
        obtain ⟨front, rest, rfl, hfront⟩ := ih (some p) h
        refine ⟨b :: front, rest, rfl, ?_⟩
        rw [scanFrom, hfeed, List.nil_append, hfront]
      · rw [hbroken] at h
        exact absurd rfl h

/-- What a scan of valid text goes on with. -/
theorem scanFrom_append_of_valid (st : Option Pending) (front rest : List UInt8)
    (h : (scanFrom st front).all Piece.isValid = true) :
    scanFrom st (front ++ rest) = scanFrom st front ++ scan rest := by
  induction front generalizing st with
  | nil =>
      cases st with
      | none => rfl
      | some p => exact nomatch h
  | cons b front ih =>
      rw [scanFrom, List.all_append, Bool.and_eq_true] at h
      rw [List.cons_append, scanFrom, scanFrom, ih _ h.2, List.append_assoc]

theorem take_validUpTo (bs : List UInt8) :
    bs.take (validUpTo bs) = ((scan bs).takeWhile Piece.isValid).flatMap Piece.raw := by
  have hraw := raw_scan bs
  rw [← List.takeWhile_append_dropWhile (p := Piece.isValid) (l := scan bs),
    List.flatMap_append] at hraw
  rw [validUpTo]
  calc bs.take _ = (_ ++ _ : List UInt8).take _ := by rw [hraw]
    _ = _ := List.take_left

/-- What is valid up to there is valid text. -/
theorem isUtf8_take_validUpTo (bs : List UInt8) : isUtf8 (bs.take (validUpTo bs)) = true := by
  rw [take_validUpTo]
  by_cases hnone : (scan bs).takeWhile Piece.isValid = []
  · rw [hnone]
    rfl
  · obtain ⟨front, rest, -, hfront⟩ := scanFrom_takeWhile none bs hnone
    have hraw := raw_scanFrom none front
    rw [hfront] at hraw
    rw [scan, hraw]
    show (scanFrom none front).all _ = true
    rw [hfront]
    exact List.all_eq_true.mpr fun x hx => List.mem_takeWhile_imp hx

/-- No longer prefix is. -/
theorem length_le_validUpTo {front : List UInt8} (rest : List UInt8) (h : isUtf8 front = true) :
    front.length ≤ validUpTo (front ++ rest) := by
  have happend : scan (front ++ rest) = scan front ++ scan rest :=
    scanFrom_append_of_valid none front rest h
  rw [validUpTo, happend, List.takeWhile_append_of_pos (List.all_eq_true.mp h),
    List.flatMap_append, raw_scan, List.length_append]
  exact Nat.le_add_right _ _

end DevstackLossyUtf8
