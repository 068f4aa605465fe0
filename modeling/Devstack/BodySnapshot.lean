import Devstack.ApiCapture
import Devstack.LogFmt
import Devstack.Lib.LossyUtf8
import Mathlib.Data.List.Infix

/-! # Body snapshots — what the log of a proxy says of a body

    `CapturedBody`, `body_snapshot` and `captured_text` of `src/services/api_capture.rs`.
    The chunks of a body are counted and kept up to a limit; what was kept is logged as
    JSON, as text or as binary.  Text is the longest valid prefix: this leaves out a
    character that the limit has cut in two, but also all that is behind a byte that is
    not UTF-8.

    * `captured_chunks`: the bytes that are kept are the first ones, however the body
      came in;
    * `faithful_iff`: content that is not reported as truncated is the whole body, except
      when an invalid byte comes after valid text. -/

namespace DevstackBodySnapshot

open DevstackApiCapture DevstackLossyUtf8
open DevstackLogFmt (isWhitespace)

/-! ## `str` and headers -/

/-- A `str`: bytes that are UTF-8. -/
structure Text where
  bytes : List UInt8
  utf8 : isUtf8 bytes = true

/-- `str::from_utf8`. -/
def fromUtf8 (bytes : List UInt8) : Option Text :=
  if h : isUtf8 bytes = true then some ⟨bytes, h⟩ else none

/-- `HeaderMap`, with names in lower case. -/
abbrev HeaderMap := List (String × List UInt8)

def HeaderMap.get (headers : HeaderMap) (name : String) : Option (List UInt8) :=
  (headers.find? (fun entry => decide (entry.1 = name))).map Prod.snd

/-- `HeaderValue::to_str`: visible ASCII. -/
def toStr (value : List UInt8) : Option (List UInt8) :=
  if value.all (fun b => decide (b = 0x09 ∨ 0x20 ≤ b ∧ b < 0x7F)) then some value else none

/-- `to_ascii_lowercase`. -/
def toAsciiLowercase (value : List UInt8) : List UInt8 :=
  value.map (fun b => if 0x41 ≤ b ∧ b ≤ 0x5A then b + 0x20 else b)

/-! ## The snapshot -/

/-- `captured_text`. -/
def capturedText (bytes : List UInt8) : Option Text :=
  match fromUtf8 bytes with
  | some text => some text
  | none =>
      if validUpTo bytes > 0 then fromUtf8 (bytes.take (validUpTo bytes))
      else none

/-- `body_looks_json`. -/
def bodyLooksJson (headers : HeaderMap) (text : Text) : Bool :=
  let contentTypeJson := ((headers.get "content-type").bind toStr).any
    (fun value => decide ("json".toUTF8.toList <:+: toAsciiLowercase value))
  let trimmed := (chars (scan text.bytes)).dropWhile isWhitespace
  contentTypeJson || trimmed.head? == some '{' || trimmed.head? == some '['

/-- The last field of a snapshot. -/
inductive Content (Value : Type) where
  | absent
  | json (value : Value)
  | text (content : Text)
  | binary

structure Snapshot (Value : Type) where
  bytes : Nat
  capturedBytes : Option Nat
  truncated : Bool
  content : Content Value

variable {Value : Type} (fromStr : Text → Option Value)

/-- `body_snapshot`; `fromStr` is `serde_json::from_str`. -/
def bodySnapshot (headers : HeaderMap) (body : CapturedBody) : Snapshot Value :=
  let truncated := decide (body.captured.length < body.totalBytes)
  if body.totalBytes = 0 then ⟨0, none, false, .absent⟩
  else if body.captured = [] then ⟨body.totalBytes, some 0, truncated, .absent⟩
  else
    { bytes := body.totalBytes
      capturedBytes := some body.captured.length
      truncated := truncated
      content :=
        match capturedText body.captured with
        | none => .binary
        | some text =>
            if bodyLooksJson headers text then
              match fromStr text with
              | some value => .json value
              | none => .text text
            else .text text }

/-! ## What is kept of a body -/

/-- The chunks of a body, one after the other. -/
def captureChunks (limit : Nat) (chunks : List (List UInt8)) : CapturedBody :=
  chunks.foldl CapturedBody.append (.new limit)

theorem append_kept {body : CapturedBody} {seen : List UInt8} (chunk : List UInt8)
    (hcaptured : body.captured = seen.take body.limit)
    (htotal : body.totalBytes = min seen.length usizeMax) :
    (body.append chunk).captured = (seen ++ chunk).take body.limit
      ∧ (body.append chunk).totalBytes = min (seen ++ chunk).length usizeMax := by
  constructor
  · show body.captured ++ chunk.take (body.limit - body.captured.length) = _
    rw [hcaptured, List.take_append, List.length_take]
    congr 2
    omega
  · show min (body.totalBytes + chunk.length) usizeMax = _
    rw [htotal, List.length_append]
    omega

theorem foldl_kept (chunks : List (List UInt8)) {body : CapturedBody} {seen : List UInt8}
    (hcaptured : body.captured = seen.take body.limit)
    (htotal : body.totalBytes = min seen.length usizeMax) :
    (chunks.foldl CapturedBody.append body).captured = (seen ++ chunks.flatten).take body.limit
      ∧ (chunks.foldl CapturedBody.append body).totalBytes
        = min (seen ++ chunks.flatten).length usizeMax := by
  induction chunks generalizing body seen with
  | nil =>
      rw [List.flatten_nil, List.append_nil]
      exact ⟨hcaptured, htotal⟩
  | cons chunk chunks ih =>
      obtain ⟨hcaptured', htotal'⟩ := append_kept chunk hcaptured htotal
      rw [List.flatten_cons, ← List.append_assoc]
      exact ih hcaptured' htotal'

/-- **HOWEVER THE BODY COMES IN**, its first bytes are kept, and its length up to the
    largest number. -/
theorem captured_chunks (limit : Nat) (chunks : List (List UInt8)) :
    (captureChunks limit chunks).captured = chunks.flatten.take limit
      ∧ (captureChunks limit chunks).totalBytes = min chunks.flatten.length usizeMax := by
  have hnone : (CapturedBody.new limit).captured = ([] : List UInt8).take limit :=
    List.take_nil.symm
  have hkept := foldl_kept chunks hnone rfl
  rwa [List.nil_append] at hkept

def chunksOf (polls : List Polled) : List (List UInt8) :=
  polls.filterMap (fun polled =>
    match polled with
    | .chunk bytes => some bytes
    | _ => none)

/-- A response that has not ended. -/
theorem polled_body (durationMs : Nat) (polls : List Polled) (response : CaptureResponseStream)
    (h : ∀ polled ∈ polls, polled ≠ .failed ∧ polled ≠ .ended) :
    polls.foldl (fun response polled => (pollNext durationMs response polled).2) response
      = { response with
          responseBody := (chunksOf polls).foldl CapturedBody.append response.responseBody } := by
  induction polls generalizing response with
  | nil => rfl
  | cons polled polls ih =>
      obtain ⟨hfailed, hended⟩ := h polled List.mem_cons_self
      have hrest := ih (pollNext durationMs response polled).2
        (fun other hother => h other (List.mem_cons_of_mem _ hother))
      rw [List.foldl_cons, hrest]
      cases polled with
      | chunk bytes | pending => rfl
      | failed => exact absurd rfl hfailed
      | ended => exact absurd rfl hended

/-- The record of a response that ends has all its chunks. -/
theorem logged_body (durationMs limit : Nat) (polls : List Polled)
    {response : CaptureResponseStream} (hbody : response.responseBody = .new limit)
    (hlogged : response.logged = false)
    (h : ∀ polled ∈ polls, polled ≠ .failed ∧ polled ≠ .ended) :
    (pollNext durationMs
        (polls.foldl (fun response polled => (pollNext durationMs response polled).2) response)
        .ended).1.map CaptureApiRecord.responseBody
      = some (captureChunks limit (chunksOf polls)) := by
  rw [polled_body durationMs polls response h, pollNext, logOnce, hlogged, hbody]
  rfl

/-! ## What is asked of it -/

/-- Text is the bytes of the body, JSON what is read from the text of the body. -/
def Represents (content : Content Value) (body : List UInt8) : Prop :=
  match content with
  | .text text => text.bytes = body
  | .json value => ∃ text : Text, text.bytes = body ∧ fromStr text = some value
  | .absent | .binary => True

/-- A captured body says of the body what it says it does. -/
structure Faithful (headers : HeaderMap) (limit : Nat) (chunks : List (List UInt8)) : Prop where
  captured : (captureChunks limit chunks).captured
    = chunks.flatten.take (min limit chunks.flatten.length)
  total : (captureChunks limit chunks).totalBytes = chunks.flatten.length
  complete : (bodySnapshot fromStr headers (captureChunks limit chunks)).truncated = false →
    Represents fromStr (bodySnapshot fromStr headers (captureChunks limit chunks)).content
      chunks.flatten

/-- The body is empty or does not begin with text. -/
def NoText (body : List UInt8) : Prop :=
  ∀ front, front <+: body → isUtf8 front = true → front = []

/-! ## When it is so -/

theorem fromUtf8_of_valid {bytes : List UInt8} (h : isUtf8 bytes = true) :
    fromUtf8 bytes = some ⟨bytes, h⟩ := dif_pos h

theorem capturedText_of_valid {bytes : List UInt8} (h : isUtf8 bytes = true) :
    capturedText bytes = some ⟨bytes, h⟩ := by
  rw [capturedText, fromUtf8_of_valid h]

/-- Bytes that are not all text are binary, or lose what is behind the text. -/
theorem capturedText_of_invalid {bytes : List UInt8} (h : isUtf8 bytes = false) :
    (capturedText bytes = none ↔ NoText bytes)
      ∧ ∀ text, capturedText bytes = some text → text.bytes ≠ bytes := by
  have hnone : fromUtf8 bytes = none := dif_neg (by rw [h]; exact Bool.false_ne_true)
  have hfront : fromUtf8 (bytes.take (validUpTo bytes)) = some _ :=
    fromUtf8_of_valid (isUtf8_take_validUpTo bytes)
  refine ⟨?_, fun text _ hbytes => ?_⟩
  · rw [capturedText, hnone]
    show (if validUpTo bytes > 0 then _ else none) = none ↔ _
    constructor
    · intro hbinary
      split at hbinary
      · rw [hfront] at hbinary
        exact nomatch hbinary
      · next hzero =>
          rintro front ⟨rest, rfl⟩ hfront
          have hle := length_le_validUpTo rest hfront
          exact List.eq_nil_of_length_eq_zero (by omega)
    · intro htext
      split
      · next hpos =>
          have hempty := htext _ (List.take_prefix _ _) (isUtf8_take_validUpTo bytes)
          rcases List.take_eq_nil_iff.mp hempty with hzero | hbytes
          · omega
          · rw [hbytes] at h
            exact nomatch h
      · rfl
  · rw [← hbytes, text.utf8] at h
    exact nomatch h

theorem bodySnapshot_truncated (headers : HeaderMap) (body : CapturedBody) :
    (bodySnapshot fromStr headers body).truncated
      = decide (body.captured.length < body.totalBytes) := by
  rw [bodySnapshot]
  split
  · next hzero =>
      rw [hzero]
      exact (decide_eq_false (Nat.not_lt_zero _)).symm
  · split <;> rfl

/-- The content of a body that was kept as a whole. -/
theorem represents_iff (headers : HeaderMap) {body : CapturedBody}
    (htotal : body.totalBytes = body.captured.length) :
    Represents fromStr (bodySnapshot fromStr headers body).content body.captured
      ↔ isUtf8 body.captured = true ∨ NoText body.captured := by
  by_cases hempty : body.captured = []
  · have hzero : body.totalBytes = 0 := by rw [htotal, hempty, List.length_nil]
    rw [bodySnapshot, if_pos hzero, hempty]
    exact iff_of_true trivial (Or.inl rfl)
  · have hpos : body.totalBytes ≠ 0 := by
      rw [htotal]
      exact fun hzero => hempty (List.eq_nil_of_length_eq_zero hzero)
    rw [bodySnapshot, if_neg hpos, if_neg hempty]
    simp only
    cases hvalid : isUtf8 body.captured with
    | true =>
        refine iff_of_true ?_ (Or.inl rfl)
        rw [capturedText_of_valid hvalid]
        simp only
        split
        · split
          · next value hvalue => exact ⟨⟨body.captured, hvalid⟩, rfl, hvalue⟩
          · exact rfl
        · exact rfl
    | false =>
        obtain ⟨hbinary, hlost⟩ := capturedText_of_invalid hvalid
        cases htext : capturedText body.captured with
        | none => exact iff_of_true trivial (Or.inr (hbinary.mp htext))
        | some text =>
            have hsome : ¬ NoText body.captured := by
              rw [← hbinary, htext]
              exact Option.some_ne_none text
            refine iff_of_false ?_ (not_or.mpr ⟨Bool.false_ne_true, hsome⟩)
            simp only
            split
            · split
              · rintro ⟨whole, hwhole, -⟩
                rw [← hwhole, whole.utf8] at hvalid
                cases hvalid
              · exact hlost text htext
            · exact hlost text htext

/-- **CAPTURED BODIES ARE FAITHFUL**: exactly if a body is not longer than the largest number,
    and is longer than the limit, or is text, or does not begin with text. -/
theorem faithful_iff (headers : HeaderMap) (limit : Nat) (chunks : List (List UInt8)) :
    Faithful fromStr headers limit chunks
      ↔ chunks.flatten.length ≤ usizeMax
        ∧ (limit < chunks.flatten.length ∨ isUtf8 chunks.flatten = true
          ∨ NoText chunks.flatten) := by
  obtain ⟨hcaptured, htotal⟩ := captured_chunks limit chunks
  have htake : chunks.flatten.take limit
      = chunks.flatten.take (min limit chunks.flatten.length) := by
    rw [List.take_eq_take_iff, Nat.min_assoc, Nat.min_self]
  -- a body within the limit is kept as a whole
  have hwhole : chunks.flatten.length ≤ limit →
      (captureChunks limit chunks).captured = chunks.flatten := fun hle => by
    rw [hcaptured, List.take_of_length_le hle]
  constructor
  · intro h
    have hlength : chunks.flatten.length ≤ usizeMax := by
      have htotal' := h.total
      rw [htotal] at htotal'
      omega
    refine ⟨hlength, ?_⟩
    rcases Nat.lt_or_ge limit chunks.flatten.length with hlt | hle
    · exact Or.inl hlt
    · right
      have hcomplete := h.complete
      rw [bodySnapshot_truncated, hwhole hle, h.total] at hcomplete
      have hrepresents := hcomplete (decide_eq_false (Nat.lt_irrefl _))
      rw [← hwhole hle] at hrepresents ⊢
      refine (represents_iff fromStr headers ?_).mp hrepresents
      rw [hwhole hle, h.total]
  · rintro ⟨hlength, hcontent⟩
    have htotal' : (captureChunks limit chunks).totalBytes = chunks.flatten.length := by
      rw [htotal, Nat.min_eq_left hlength]
    refine ⟨hcaptured.trans htake, htotal', ?_⟩
    rw [bodySnapshot_truncated, htotal']
    rcases Nat.lt_or_ge limit chunks.flatten.length with hlt | hle
    · rw [hcaptured, List.length_take, Nat.min_eq_left (Nat.le_of_lt hlt), decide_eq_true hlt]
      exact fun htruncated => (nomatch htruncated)
    · intro _
      have hvalid := hcontent.resolve_left (Nat.not_lt.mpr hle)
      rw [← hwhole hle] at hvalid ⊢
      refine (represents_iff fromStr headers ?_).mpr hvalid
      rw [hwhole hle, htotal']

/-- Latin-1: the text in front of the accent is logged as the whole body. -/
theorem bytes_lost :
    ¬ Faithful (fun _ => (none : Option Unit)) [] 10 [[0x63, 0x61, 0x66], [0xE9, 0x20, 0x61]] := by
  intro h
  rcases (represents_iff _ [] rfl).mp (h.complete (by decide +kernel)) with hvalid | hnone
  · exact nomatch hvalid
  · exact nomatch hnone [0x63] ⟨[0x61, 0x66, 0xE9, 0x20, 0x61], rfl⟩ rfl

end DevstackBodySnapshot
