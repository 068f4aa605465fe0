import Mathlib.Data.List.Basic

/-! # ASCII words — in a text and in its bytes

    The ASCII letters and digits by their codes.  A byte below 0x80 in a UTF-8 text is a
    character of its own, so a place between two ASCII bytes, or beside one, is a place
    between two characters (`split_word`).  `WordIn` says where a word stands between
    characters that are no part of it; `SameCase.wordIn_utf8`: for ASCII words the bytes
    tell the same as the text. -/

namespace DevstackAsciiWords

-- ── letters and digits ────────────────────────────────────────────────────────

/-- The digits by their codes. -/
theorem isDigit_iff {c : Char} : c.isDigit = true ↔ 48 ≤ c.toNat ∧ c.toNat ≤ 57 := by
  show (decide (48 ≤ c.val) && decide (c.val ≤ 57)) = true ↔ _
  rw [Bool.and_eq_true, decide_eq_true_eq, decide_eq_true_eq]
  exact Iff.rfl

/-- The letters by their codes, in both cases. -/
theorem isAlpha_iff {c : Char} :
    c.isAlpha = true ↔ (65 ≤ c.toNat ∧ c.toNat ≤ 90) ∨ (97 ≤ c.toNat ∧ c.toNat ≤ 122) := by
  show (decide (65 ≤ c.val ∧ c.val ≤ 90) || (decide (97 ≤ c.val) && decide (c.val ≤ 122))) = true
    ↔ _
  rw [Bool.or_eq_true, Bool.and_eq_true, decide_eq_true_eq, decide_eq_true_eq, decide_eq_true_eq]
  exact Iff.rfl

theorem isAlphanum_iff {c : Char} : c.isAlphanum = true ↔ c.isAlpha = true ∨ c.isDigit = true := by
  show (c.isAlpha || c.isDigit) = true ↔ _
  rw [Bool.or_eq_true]

/-- The letters and digits stand before '{'. -/
theorem isAlphanum_lt {c : Char} (h : c.isAlphanum = true) : c.toNat < 123 := by
  rw [isAlphanum_iff, isAlpha_iff, isDigit_iff] at h
  omega

-- ── the bytes of a text ───────────────────────────────────────────────────────

/-- The bytes of a text. -/
def utf8 (cs : List Char) : List UInt8 := cs.flatMap String.utf8EncodeChar

@[simp] theorem utf8_nil : utf8 [] = [] := rfl

theorem utf8_cons (c : Char) (cs : List Char) :
    utf8 (c :: cs) = String.utf8EncodeChar c ++ utf8 cs := rfl

/-- The bytes of a text are those of its parts. -/
theorem utf8_append (cs ds : List Char) : utf8 (cs ++ ds) = utf8 cs ++ utf8 ds :=
  List.flatMap_append ..

/-- The loop of `ByteArray.toList` from any index on. -/
theorem toList_loop (bytes : ByteArray) (i : Nat) (read : List UInt8) :
    ByteArray.toList.loop bytes i read = read.reverse ++ bytes.data.toList.drop i := by
  rw [ByteArray.toList.loop]
  split
  · next hlt =>
      have hget : bytes.get! i = bytes.data.toList.get ⟨i, hlt⟩ := by
        show bytes.data[i]! = _
        rw [getElem!_pos bytes.data i hlt]
        rfl
      rw [toList_loop, List.reverse_cons, hget, List.append_assoc, List.singleton_append,
        List.get_eq_getElem, List.getElem_cons_drop]
  · next hge =>
      rw [List.drop_eq_nil_of_le (Nat.le_of_not_lt hge), List.append_nil]
termination_by bytes.size - i

/-- So the bytes of a string are those of its characters. -/
theorem toUTF8_toList (text : String) : text.toUTF8.toList = utf8 text.toList := by
  rw [ByteArray.toList, toList_loop, List.drop_zero]
  have hbytes : text.toByteArray = (utf8 text.toList).toByteArray := by
    conv => lhs; rw [← String.ofList_toList (s := text)]
    rfl
  show text.toByteArray.data.toList = _
  rw [hbytes, List.data_toByteArray]

theorem le_ofNat {n : Nat} (hlow : 0x80 ≤ n) (hhigh : n < 0x100) :
    (0x80 : UInt8) ≤ UInt8.ofNat n := by
  rw [UInt8.le_iff_toNat_le, UInt8.toNat_ofNat', Nat.mod_eq_of_lt hhigh]
  exact hlow

/-- A character is one ASCII byte, or has none. -/
theorem utf8EncodeChar_cases (c : Char) :
    (c.toNat < 0x80 ∧ String.utf8EncodeChar c = [UInt8.ofNat c.toNat])
      ∨ (0x80 ≤ c.toNat ∧ String.utf8EncodeChar c ≠ []
        ∧ ∀ b ∈ String.utf8EncodeChar c, 0x80 ≤ b) := by
  show (c.val.toNat < 0x80 ∧ _ = [UInt8.ofNat c.val.toNat]) ∨ (0x80 ≤ c.val.toNat ∧ _)
  rw [String.utf8EncodeChar]
  split
  · next hle => exact Or.inl ⟨Nat.lt_succ_of_le hle, rfl⟩
  · next hgt =>
      refine Or.inr ⟨Nat.lt_of_not_le hgt, ?_⟩
      split
      · refine ⟨List.cons_ne_nil _ _, ?_⟩
        simp only [List.mem_cons, List.not_mem_nil, or_false]
        rintro b (rfl | rfl) <;> exact le_ofNat (by omega) (by omega)
      · split
        · refine ⟨List.cons_ne_nil _ _, ?_⟩
          simp only [List.mem_cons, List.not_mem_nil, or_false]
          rintro b (rfl | rfl | rfl) <;> exact le_ofNat (by omega) (by omega)
        · refine ⟨List.cons_ne_nil _ _, ?_⟩
          simp only [List.mem_cons, List.not_mem_nil, or_false]
          rintro b (rfl | rfl | rfl | rfl) <;> exact le_ofNat (by omega) (by omega)

/-- Every character has a byte. -/
theorem utf8_eq_nil {cs : List Char} : utf8 cs = [] ↔ cs = [] := by
  cases cs with
  | nil => exact iff_of_true rfl rfl
  | cons c cs =>
      refine iff_of_false (fun h => ?_) (List.cons_ne_nil _ _)
      exact absurd (List.append_eq_nil_iff.mp h).1 String.utf8EncodeChar_ne_nil

-- ── a place beside an ASCII byte ──────────────────────────────────────────────

/-- An ASCII byte is a character, and cuts the text where it cuts the bytes. -/
theorem split_byte {cs : List Char} {front : List UInt8} {b : UInt8} {back : List UInt8}
    (h : utf8 cs = front ++ b :: back) (hb : b < 0x80) :
    ∃ before c after, cs = before ++ c :: after ∧ utf8 before = front ∧ utf8 after = back
      ∧ c.toNat < 0x80 ∧ b = UInt8.ofNat c.toNat := by
  induction cs generalizing front with
  | nil => exact absurd h.symm (List.append_ne_nil_of_right_ne_nil _ (List.cons_ne_nil _ _))
  | cons c cs ih =>
      rw [utf8_cons] at h
      rcases utf8EncodeChar_cases c with ⟨hc, hbyte⟩ | ⟨-, -, hhigh⟩
      · rw [hbyte, List.singleton_append] at h
        cases front with
        | nil =>
            obtain ⟨rfl, rfl⟩ := List.cons.inj h
            exact ⟨[], c, cs, rfl, rfl, rfl, hc, rfl⟩
        | cons b' front =>
            obtain ⟨rfl, hrest⟩ := List.cons.inj h
            obtain ⟨before, d, after, rfl, hbefore, hafter, hd⟩ := ih hrest
            refine ⟨c :: before, d, after, rfl, ?_, hafter, hd⟩
            rw [utf8_cons, hbyte, hbefore]
            rfl
      · -- the bytes of `c` all stand in `front`
        rcases List.append_eq_append_iff.mp h with ⟨more, hfront, hrest⟩ | ⟨more, hchar, hrest⟩
        · obtain ⟨before, d, after, rfl, hbefore, hafter, hd⟩ := ih hrest
          refine ⟨c :: before, d, after, rfl, ?_, hafter, hd⟩
          rw [utf8_cons, hbefore, hfront]
        · cases more with
          | nil =>
              have hcs : utf8 cs = [] ++ b :: back := by rw [hrest]; rfl
              obtain ⟨before, d, after, rfl, hbefore, hafter, hd⟩ := ih hcs
              refine ⟨c :: before, d, after, rfl, ?_, hafter, hd⟩
              rw [utf8_cons, hbefore, hchar, List.append_nil, List.append_nil]
          | cons b' more =>
              obtain ⟨rfl, -⟩ := List.cons.inj hrest
              have hmem : b ∈ String.utf8EncodeChar c := by
                rw [hchar]
                exact List.mem_append_right _ List.mem_cons_self
              exact absurd hb (UInt8.not_lt.mpr (hhigh b hmem))

/-- The byte of an ASCII character. -/
def asciiByte (c : Char) : UInt8 := UInt8.ofNat c.toNat

/-- An ASCII text has a byte for each character. -/
theorem utf8_ascii {cs : List Char} (h : ∀ c ∈ cs, c.toNat < 0x80) :
    utf8 cs = cs.map asciiByte := by
  induction cs with
  | nil => rfl
  | cons c cs ih =>
      obtain ⟨hc, hcs⟩ := List.forall_mem_cons.mp h
      rcases utf8EncodeChar_cases c with ⟨-, hbyte⟩ | ⟨hhigh, -⟩
      · rw [utf8_cons, hbyte, ih hcs]
        rfl
      · exact absurd hc (Nat.not_lt.mpr hhigh)

/-- ASCII bytes one after the other are characters one after the other. -/
theorem split_word {cs : List Char} {front word back : List UInt8}
    (h : utf8 cs = front ++ (word ++ back)) (hne : word ≠ []) (hword : ∀ b ∈ word, b < 0x80) :
    ∃ before mid after, cs = before ++ (mid ++ after) ∧ utf8 before = front
      ∧ utf8 after = back ∧ word = mid.map asciiByte ∧ ∀ c ∈ mid, c.toNat < 0x80 := by
  induction word generalizing cs front with
  | nil => exact absurd rfl hne
  | cons b word ih =>
      obtain ⟨hb, hrest⟩ := List.forall_mem_cons.mp hword
      obtain ⟨before, c, after, rfl, hbefore, hafter, hc, rfl⟩ := split_byte h hb
      by_cases hempty : word = []
      · subst hempty
        refine ⟨before, [c], after, rfl, hbefore, hafter, rfl, ?_⟩
        intro d hd
        rwa [List.mem_singleton.mp hd]
      · have hmore : utf8 after = [] ++ (word ++ back) := hafter
        obtain ⟨between, mid, after', rfl, hbetween, hafter', rfl, hmid⟩ := ih hmore hempty hrest
        obtain rfl := utf8_eq_nil.mp hbetween
        exact ⟨before, c :: mid, after', rfl, hbefore, hafter', rfl,
          List.forall_mem_cons.mpr ⟨hc, hmid⟩⟩

-- ── words ─────────────────────────────────────────────────────────────────────

variable {α : Type}

/-- The word stands in the text, its letters lowered, between what is no part of a word. -/
def WordIn (part : α → Bool) (lower : α → α) (word text : List α) : Prop :=
  ∃ before mid after, text = before ++ (mid ++ after) ∧ mid.map lower = word
    ∧ before.getLast?.any part = false ∧ after.head?.any part = false

/-- Letters of words, and lowering, that are the same on characters and on bytes and
    touch nothing but ASCII. -/
structure SameCase (part : Char → Bool) (lower : Char → Char) (partByte : UInt8 → Bool)
    (lowerByte : UInt8 → UInt8) : Prop where
  part_eq : ∀ c : Char, c.toNat < 0x80 → partByte (asciiByte c) = part c
  part_high : ∀ c : Char, 0x80 ≤ c.toNat → part c = false
  part_high_byte : ∀ b : UInt8, 0x80 ≤ b → partByte b = false
  lower_eq : ∀ c : Char, c.toNat < 0x80 → lowerByte (asciiByte c) = asciiByte (lower c)
  lower_ascii : ∀ c : Char, c.toNat < 0x80 → (lower c).toNat < 0x80
  lower_high : ∀ c : Char, 0x80 ≤ c.toNat → 0x80 ≤ (lower c).toNat
  lower_high_byte : ∀ b : UInt8, 0x80 ≤ b → 0x80 ≤ lowerByte b

section SameCase

variable {part : Char → Bool} {lower : Char → Char} {partByte : UInt8 → Bool}
  {lowerByte : UInt8 → UInt8}

/-- A character is part of a word if its first byte is, and if its last one is. -/
theorem SameCase.char (h : SameCase part lower partByte lowerByte) (c : Char) :
    (String.utf8EncodeChar c).head?.any partByte = part c
      ∧ (String.utf8EncodeChar c).getLast?.any partByte = part c := by
  rcases utf8EncodeChar_cases c with ⟨hc, hbyte⟩ | ⟨hc, hne, hhigh⟩
  · rw [hbyte]
    exact ⟨h.part_eq c hc, h.part_eq c hc⟩
  · rw [h.part_high c hc, List.head?_eq_some_head hne, List.getLast?_eq_some_getLast hne]
    exact ⟨h.part_high_byte _ (hhigh _ (List.head_mem hne)),
      h.part_high_byte _ (hhigh _ (List.getLast_mem hne))⟩

/-- So the bytes tell whether a text begins in a word. -/
theorem SameCase.head (h : SameCase part lower partByte lowerByte) (cs : List Char) :
    (utf8 cs).head?.any partByte = cs.head?.any part := by
  cases cs with
  | nil => rfl
  | cons c cs =>
      rw [utf8_cons, List.head?_append_of_ne_nil _ String.utf8EncodeChar_ne_nil]
      exact (h.char c).1

/-- And whether it ends in one. -/
theorem SameCase.getLast (h : SameCase part lower partByte lowerByte) (cs : List Char) :
    (utf8 cs).getLast?.any partByte = cs.getLast?.any part := by
  rcases List.eq_nil_or_concat cs with rfl | ⟨init, c, rfl⟩
  · rfl
  · rw [List.concat_eq_append, utf8_append, List.getLast?_concat]
    show (utf8 init ++ (String.utf8EncodeChar c ++ [])).getLast?.any partByte = part c
    rw [List.append_nil, List.getLast?_append_of_ne_nil _ String.utf8EncodeChar_ne_nil]
    exact (h.char c).2

/-- ASCII characters are told apart by their bytes. -/
theorem asciiByte_inj {c d : Char} (hc : c.toNat < 0x80) (hd : d.toNat < 0x80)
    (h : asciiByte c = asciiByte d) : c = d := by
  have hnat := congrArg UInt8.toNat h
  rw [asciiByte, asciiByte, UInt8.toNat_ofNat', UInt8.toNat_ofNat',
    Nat.mod_eq_of_lt (by omega), Nat.mod_eq_of_lt (by omega)] at hnat
  exact Char.toNat_inj.mp hnat

/-- So are ASCII texts. -/
theorem map_asciiByte_inj {cs ds : List Char} (hcs : ∀ c ∈ cs, c.toNat < 0x80)
    (hds : ∀ d ∈ ds, d.toNat < 0x80) (h : cs.map asciiByte = ds.map asciiByte) : cs = ds := by
  induction cs generalizing ds with
  | nil => exact (List.map_eq_nil_iff.mp h.symm).symm
  | cons c cs ih =>
      cases ds with
      | nil => exact absurd h (List.cons_ne_nil _ _)
      | cons d ds =>
          obtain ⟨hc, hcs⟩ := List.forall_mem_cons.mp hcs
          obtain ⟨hd, hds⟩ := List.forall_mem_cons.mp hds
          obtain ⟨heq, hrest⟩ := List.cons.inj h
          rw [asciiByte_inj hc hd heq, ih hcs hds hrest]

/-- An ASCII text is folded byte by byte. -/
theorem SameCase.map_lower (h : SameCase part lower partByte lowerByte) {mid : List Char}
    (hmid : ∀ c ∈ mid, c.toNat < 0x80) :
    (mid.map asciiByte).map lowerByte = (mid.map lower).map asciiByte := by
  rw [List.map_map, List.map_map]
  exact List.map_congr_left fun c hc => h.lower_eq c (hmid c hc)

/-- **THE BYTES TELL THE WORDS**: an ASCII word stands in the bytes of a text if and only
    if it stands in the text. -/
theorem SameCase.wordIn_utf8 (h : SameCase part lower partByte lowerByte) {word : List Char}
    (hne : word ≠ []) (hword : ∀ c ∈ word, c.toNat < 0x80) (text : List Char) :
    WordIn partByte lowerByte (utf8 word) (utf8 text) ↔ WordIn part lower word text := by
  rw [utf8_ascii hword]
  constructor
  · rintro ⟨front, bytes, back, htext, hbytes, hfront, hback⟩
    have hsome : bytes ≠ [] := by
      rintro rfl
      exact hne (List.map_eq_nil_iff.mp hbytes.symm)
    have hascii : ∀ b ∈ bytes, b < 0x80 := by
      intro b hb
      refine UInt8.not_le.mp fun hle => ?_
      have hmem := List.mem_map_of_mem (f := lowerByte) hb
      rw [hbytes] at hmem
      obtain ⟨c, hc, heq⟩ := List.mem_map.mp hmem
      have hhigh := h.lower_high_byte b hle
      rw [← heq, asciiByte, UInt8.le_iff_toNat_le, UInt8.toNat_ofNat',
        Nat.mod_eq_of_lt (by have := hword c hc; omega)] at hhigh
      exact absurd (hword c hc) (Nat.not_lt.mpr hhigh)
    obtain ⟨before, mid, after, rfl, rfl, rfl, rfl, hmid⟩ := split_word htext hsome hascii
    rw [h.map_lower hmid] at hbytes
    have hlower : ∀ c ∈ mid.map lower, c.toNat < 0x80 := by
      intro c hc
      obtain ⟨d, hd, rfl⟩ := List.mem_map.mp hc
      exact h.lower_ascii d (hmid d hd)
    exact ⟨before, mid, after, rfl, map_asciiByte_inj hlower hword hbytes,
      (h.getLast before).symm.trans hfront, (h.head after).symm.trans hback⟩
  · rintro ⟨before, mid, after, rfl, rfl, hbefore, hafter⟩
    have hmid : ∀ c ∈ mid, c.toNat < 0x80 := by
      intro c hc
      refine Nat.lt_of_not_le fun hle => ?_
      exact absurd (hword _ (List.mem_map_of_mem hc)) (Nat.not_lt.mpr (h.lower_high c hle))
    refine ⟨utf8 before, mid.map asciiByte, utf8 after, ?_, h.map_lower hmid,
      (h.getLast before).trans hbefore, (h.head after).trans hafter⟩
    rw [utf8_append, utf8_append, utf8_ascii hmid]

end SameCase

end DevstackAsciiWords
