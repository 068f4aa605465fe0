import Devstack.Lib.AsciiWords
import Mathlib.Data.Nat.Notation

/-! # Form encoding — pairs in the query of a URL

    `key=value&key=value`, split at `&` and at the first `=`, as the form parser of the
    URL standard does; empty sections are skipped.  How a value is written and a section
    part is read is a `Codec`.  Keys are written as they are.

    What is needed of a codec is that it writes no `&`, reads what it wrote and leaves the
    letters of the keys alone (`Lawful`); then `parse` reads back every rendered list of
    pairs (`parse_render`).  `percent` is percent-encoding, and it is lawful. -/

namespace DevstackForm

open DevstackAsciiWords

/-- How a value is written, and how a part of a section is read. -/
structure Codec where
  encode : String → String
  decode : List Char → String

/-- The characters of the keys. -/
def isPlain (c : Char) : Bool := c.isAlpha || c == '_'

/-- A key that is written as it is. -/
def Plain (key : String) : Prop := ∀ c ∈ key.toList, isPlain c = true

instance (key : String) : Decidable (Plain key) :=
  List.decidableBAll (fun c => isPlain c = true) key.toList

/-- What the round trip needs of a codec. -/
structure Codec.Lawful (codec : Codec) : Prop where
  encode_amp : ∀ text, '&' ∉ (codec.encode text).toList
  decode_encode : ∀ text, codec.decode (codec.encode text).toList = text
  decode_plain : ∀ key, Plain key → codec.decode key.toList = key

variable (codec : Codec)

/-- A pair as a section of the query. -/
def field (pair : String × String) : List Char :=
  pair.1.toList ++ '=' :: (codec.encode pair.2).toList

/-- The sections, joined by `&`. -/
def render (pairs : List (String × String)) : List Char :=
  ['&'].intercalate (pairs.map (field codec))

/-- A section, split at its first `=`. -/
def readField (section' : List Char) : String × String :=
  (codec.decode (section'.takeWhile (· ≠ '=')),
    codec.decode ((section'.dropWhile (· ≠ '=')).drop 1))

/-- The sections that are not empty, each read. -/
def parse (query : List Char) : List (String × String) :=
  ((query.splitOn '&').filter (· ≠ [])).map (readField codec)

variable {codec}

/-- The first section has no `&` before it, every other one has. -/
theorem render_cons (pair : String × String) (pairs : List (String × String)) :
    render codec (pair :: pairs)
      = field codec pair ++ pairs.flatMap (fun pair => '&' :: field codec pair) := by
  induction pairs generalizing pair with
  | nil =>
      rw [render, List.map_cons, List.map_nil, List.intercalate_singleton, List.flatMap_nil,
        List.append_nil]
  | cons next pairs ih =>
      rw [List.flatMap_cons, List.cons_append, ← ih next, render, List.map_cons, List.map_cons,
        List.intercalate_cons_cons, List.append_assoc]
      rfl

/-- No separator is a character of a key. -/
theorem ne_of_isPlain {c d : Char} (hc : isPlain c = true) (hd : isPlain d = false) : c ≠ d := by
  rintro rfl
  rw [hc] at hd
  cases hd

/-- A section of a lawful codec is not cut by the split at `&`. -/
theorem amp_not_mem_field (h : codec.Lawful) {pair : String × String} (hkey : Plain pair.1) :
    '&' ∉ field codec pair := by
  rw [field, List.mem_append, List.mem_cons]
  rintro (hmem | heq | hmem)
  · exact ne_of_isPlain (hkey _ hmem) (by decide : isPlain '&' = false) rfl
  · cases heq
  · exact h.encode_amp _ hmem

/-- Such a section is read back, though its value may have more `=`. -/
theorem readField_field (h : codec.Lawful) {pair : String × String} (hkey : Plain pair.1) :
    readField codec (field codec pair) = pair := by
  have hplain : ∀ c ∈ pair.1.toList, decide (c ≠ '=') = true := by
    intro c hc
    exact decide_eq_true (ne_of_isPlain (hkey c hc) (by decide : isPlain '=' = false))
  have htake : (field codec pair).takeWhile (· ≠ '=') = pair.1.toList := by
    rw [field, List.takeWhile_append_of_pos hplain, List.takeWhile_cons_of_neg (by decide),
      List.append_nil]
  have hdrop : (field codec pair).dropWhile (· ≠ '=') = '=' :: (codec.encode pair.2).toList := by
    rw [field, List.dropWhile_append_of_pos hplain, List.dropWhile_cons_of_neg (by decide)]
  rw [readField, htake, hdrop, List.drop_succ_cons, List.drop_zero, h.decode_plain _ hkey,
    h.decode_encode]

/-- Every list of pairs with plain keys is read back. -/
theorem parse_render (h : codec.Lawful) {pairs : List (String × String)}
    (hkeys : ∀ pair ∈ pairs, Plain pair.1) : parse codec (render codec pairs) = pairs := by
  cases pairs with
  | nil => rfl
  | cons first rest =>
      have hsections : (render codec (first :: rest)).splitOn '&'
          = (first :: rest).map (field codec) := by
        refine List.splitOn_intercalate '&' ?_ (List.cons_ne_nil _ _)
        intro part hpart
        obtain ⟨pair, hpair, rfl⟩ := List.mem_map.mp hpart
        exact amp_not_mem_field h (hkeys pair hpair)
      have hkept : ((first :: rest).map (field codec)).filter (· ≠ [])
          = (first :: rest).map (field codec) := by
        refine List.filter_eq_self.mpr fun part hpart => ?_
        obtain ⟨pair, -, rfl⟩ := List.mem_map.mp hpart
        exact decide_eq_true (List.append_ne_nil_of_right_ne_nil _ (List.cons_ne_nil _ _))
      rw [parse, hsections, hkept, List.map_map]
      refine (List.map_congr_left fun pair hpair => ?_).trans (List.map_id _)
      exact readField_field h (hkeys pair hpair)

-- ── percent-encoding ──────────────────────────────────────────────────────────

/-- What stands for itself. -/
def isUnreserved (c : Char) : Bool := c.isAlphanum || ['-', '_', '.', '~'].contains c

/-- The upper-case digit; `n` is below 16. -/
def hexDigit (n : Nat) : Char := Char.ofNat (if n < 10 then 48 + n else 55 + n)

/-- Both cases are read. -/
def hexValue (c : Char) : Option Nat :=
  if 48 ≤ c.toNat ∧ c.toNat ≤ 57 then some (c.toNat - 48)
  else if 65 ≤ c.toNat ∧ c.toNat ≤ 70 then some (c.toNat - 55)
  else if 97 ≤ c.toNat ∧ c.toNat ≤ 102 then some (c.toNat - 87)
  else none

def encodeByte (b : UInt8) : List Char :=
  ['%', hexDigit (b.toNat / 16), hexDigit (b.toNat % 16)]

/-- A character is escaped by the bytes of its UTF-8 code. -/
def encodeChar (c : Char) : List Char :=
  if isUnreserved c then [c] else (String.utf8EncodeChar c).flatMap encodeByte

/-- The bytes of a part; `+` is a blank, and a `%` that begins no byte stands for itself. -/
def decodeBytes : List Char → List UInt8
  | [] => []
  | '%' :: a :: b :: rest =>
      match hexValue a, hexValue b with
      | some high, some low => UInt8.ofNat (high * 16 + low) :: decodeBytes rest
      | _, _ => 37 :: decodeBytes (a :: b :: rest)
  | '+' :: rest => 32 :: decodeBytes rest
  | c :: rest => String.utf8EncodeChar c ++ decodeBytes rest

/-- Percent-encoding; bytes that are no UTF-8 are read as an empty text. -/
def percent : Codec where
  encode text := String.ofList (text.toList.flatMap encodeChar)
  decode part := String.ofList (((decodeBytes part).toByteArray.utf8Decode?).getD #[]).toList

theorem hexValue_hexDigit {n : Nat} (h : n < 16) : hexValue (hexDigit n) = some n := by
  have hall : ∀ m < 16, hexValue (hexDigit m) = some m := by decide
  exact hall n h

/-- No escape has an `&`. -/
theorem hexDigit_ne_amp {n : Nat} (h : n < 16) : hexDigit n ≠ '&' := by
  have hall : ∀ m < 16, hexDigit m ≠ '&' := by decide
  exact hall n h

/-- An escaped byte is read back, whatever follows it. -/
theorem decodeBytes_encodeByte (b : UInt8) (rest : List Char) :
    decodeBytes (encodeByte b ++ rest) = b :: decodeBytes rest := by
  have hlt : b.toNat < 256 := b.toNat_lt
  show decodeBytes ('%' :: hexDigit (b.toNat / 16) :: hexDigit (b.toNat % 16) :: rest) = _
  rw [decodeBytes, hexValue_hexDigit (by omega), hexValue_hexDigit (by omega)]
  show UInt8.ofNat (b.toNat / 16 * 16 + b.toNat % 16) :: _ = _
  rw [Nat.div_add_mod', UInt8.ofNat_toNat]

/-- So are several. -/
theorem decodeBytes_encodeBytes (bytes : List UInt8) (rest : List Char) :
    decodeBytes (bytes.flatMap encodeByte ++ rest) = bytes ++ decodeBytes rest := by
  induction bytes with
  | nil => rfl
  | cons b bytes ih =>
      rw [List.flatMap_cons, List.append_assoc, decodeBytes_encodeByte, ih, List.cons_append]

/-- A character that is neither `%` nor `+` stands for itself. -/
theorem decodeBytes_cons {c : Char} (hpercent : c ≠ '%') (hplus : c ≠ '+') (rest : List Char) :
    decodeBytes (c :: rest) = String.utf8EncodeChar c ++ decodeBytes rest := by
  rw [decodeBytes.eq_def]
  split
  · next heq => cases heq
  · next heq => exact absurd (List.cons.inj heq).1 hpercent
  · next heq => exact absurd (List.cons.inj heq).1 hplus
  · next heq =>
      obtain ⟨rfl, rfl⟩ := List.cons.inj heq
      rfl

theorem ne_of_isUnreserved {c d : Char} (hc : isUnreserved c = true)
    (hd : isUnreserved d = false) : c ≠ d := by
  rintro rfl
  rw [hc] at hd
  cases hd

/-- A character is read as its bytes, escaped or not. -/
theorem decodeBytes_encodeChar (c : Char) (rest : List Char) :
    decodeBytes (encodeChar c ++ rest) = String.utf8EncodeChar c ++ decodeBytes rest := by
  rw [encodeChar]
  by_cases hc : isUnreserved c = true
  · rw [if_pos hc]
    exact decodeBytes_cons (ne_of_isUnreserved hc (by decide)) (ne_of_isUnreserved hc (by decide))
      rest
  · rw [if_neg hc, decodeBytes_encodeBytes]

/-- The bytes of an encoded text are those of the text. -/
theorem decodeBytes_encode (cs : List Char) : decodeBytes (cs.flatMap encodeChar) = utf8 cs := by
  induction cs with
  | nil => rfl
  | cons c cs ih => rw [List.flatMap_cons, decodeBytes_encodeChar, ih, utf8_cons]

/-- A key has nothing that the decoder changes. -/
theorem decodeBytes_plain {cs : List Char} (h : ∀ c ∈ cs, isPlain c = true) :
    decodeBytes cs = utf8 cs := by
  induction cs with
  | nil => rfl
  | cons c cs ih =>
      have hc := h c List.mem_cons_self
      rw [decodeBytes_cons (ne_of_isPlain hc (by decide)) (ne_of_isPlain hc (by decide)),
        ih fun d hd => h d (List.mem_cons_of_mem c hd), utf8_cons]

/-- The bytes of a text are decoded to the text. -/
theorem ofList_utf8 (text : String) :
    String.ofList (((utf8 text.toList).toByteArray.utf8Decode?).getD #[]).toList = text := by
  have hdecode : (utf8 text.toList).toByteArray.utf8Decode? = some text.toList.toArray :=
    List.utf8Decode?_utf8Encode
  rw [hdecode, Option.getD_some, List.toList_toArray, String.ofList_toList]

/-- No character is written with an `&`. -/
theorem amp_not_mem_encodeChar (c : Char) : '&' ∉ encodeChar c := by
  rw [encodeChar]
  by_cases hc : isUnreserved c = true
  · rw [if_pos hc, List.mem_singleton]
    exact (ne_of_isUnreserved hc (by decide)).symm
  · rw [if_neg hc, List.mem_flatMap]
    rintro ⟨b, -, hb⟩
    have hlt : b.toNat < 256 := b.toNat_lt
    simp only [encodeByte, List.mem_cons, List.not_mem_nil, or_false] at hb
    rcases hb with hb | hb | hb
    · cases hb
    · exact hexDigit_ne_amp (by omega) hb.symm
    · exact hexDigit_ne_amp (by omega) hb.symm

/-- **PERCENT-ENCODING IS LAWFUL**. -/
theorem percent_lawful : percent.Lawful where
  encode_amp := by
    intro text hmem
    rw [percent, String.toList_ofList, List.mem_flatMap] at hmem
    obtain ⟨c, -, hc⟩ := hmem
    exact amp_not_mem_encodeChar c hc
  decode_encode := by
    intro text
    show String.ofList (((decodeBytes (String.ofList _).toList).toByteArray.utf8Decode?).getD
      #[]).toList = text
    rw [String.toList_ofList, decodeBytes_encode]
    exact ofList_utf8 text
  decode_plain := by
    intro key hkey
    show String.ofList (((decodeBytes key.toList).toByteArray.utf8Decode?).getD #[]).toList = key
    rw [decodeBytes_plain hkey]
    exact ofList_utf8 key

end DevstackForm
