import Devstack.LogLine

/-! # Log encoding — what is written for a line is read back

    `encode_log_line` of `src/logfmt.rs` wraps a line of text in an object, or adds the
    time and the stream to the object that the line is; the shim and the tasks write
    their logs with it.  `parse_log_line` reads what they wrote.

    That `serde_json` gives back what it prints is an assumption about third-party code,
    `Faithful`, and only about the object that is printed. -/

namespace DevstackLogEncoding

open DevstackModel DevstackLogFmt DevstackLogQuery DevstackLogLine

section Encoding

variable (tools : LineTools) (stream content timestamp : String)

/-- The line without its line end. -/
def lineText : String := String.ofList (trimLineEnd content.toList)

/-- The object that `encode_log_line` prints. -/
def payload : BTreeMap tools.json.Value :=
  let fields :=
    match tools.json.parseObject (lineText content) with
    | some map => map
    | none => (∅ : BTreeMap tools.json.Value).insert "msg" (tools.json.string (lineText content))
  (fields.insert "time" (tools.json.string timestamp)).insert "stream" (tools.json.string stream)

/-- What is assumed of `serde_json`: a text is read as that text; the text of an object
    starts with a brace; and the payload is printed as one line in braces, and read again. -/
structure Faithful : Prop where
  text : ∀ value : String, tools.view (tools.json.string value) = .string value
  brace : ∀ map, tools.json.parseObject (lineText content) = some map →
    startsWithBrace (trimLineEnd content.toList) = true
  printed : ∃ body : List Char, '\n' ∉ body ∧
    tools.json.printObject (payload tools stream content timestamp)
        = .ok (String.ofList ('{' :: (body ++ ['}'])))
      ∧ tools.json.parseObject (String.ofList ('{' :: (body ++ ['}'])))
        = some (payload tools stream content timestamp)

variable {tools stream content timestamp}

/-- The line that is written is the payload, printed. -/
theorem encodeLogLine_eq (h : Faithful tools stream content timestamp) {line : String}
    (hprint : tools.json.printObject (payload tools stream content timestamp) = .ok line) :
    encodeLogLine tools.json stream content timestamp = line := by
  rw [payload] at hprint
  rw [encodeLogLine]
  cases hparse : tools.json.parseObject (lineText content) with
  | none =>
      rw [hparse] at hprint
      rw [lineText] at hparse hprint
      dsimp only at hprint
      simp only [hparse, hprint]
  | some map =>
      have hbrace := h.brace map hparse
      rw [hparse] at hprint
      rw [lineText] at hparse
      dsimp only at hprint
      simp only [hparse, hbrace, if_true, hprint]

/-- A text in braces has nothing to trim, and starts with a brace. -/
theorem parseJsonObject_braces (body : List Char) :
    parseJsonObject tools (String.ofList ('{' :: (body ++ ['}'])))
      = tools.json.parseObject (String.ofList ('{' :: (body ++ ['}']))) := by
  have hopen : isWhitespace '{' = false := by decide
  have hclose : isWhitespace '}' = false := by decide
  have htrim : trim (String.ofList ('{' :: (body ++ ['}'])))
      = String.ofList ('{' :: (body ++ ['}'])) := by
    rw [trim, String.toList_ofList, List.dropWhile_cons_of_neg (by simp [hopen]),
      ← List.cons_append, List.rdropWhile_concat_neg _ _ _ (by simp [hclose])]
  have hstarts : (String.ofList ('{' :: (body ++ ['}']))).startsWith "\x7b" = true := by
    rw [String.startsWith_string_iff, String.toList_ofList]
    exact ⟨body ++ ['}'], by rw [String.toList_ofList]; rfl⟩
  rw [parseJsonObject, htrim, hstarts, if_pos rfl]

theorem payload_time :
    (payload tools stream content timestamp)["time"]? = some (tools.json.string timestamp) := by
  rw [payload, Std.ExtTreeMap.getElem?_insert, if_neg (by decide),
    Std.ExtTreeMap.getElem?_insert_self]

theorem payload_stream :
    (payload tools stream content timestamp)["stream"]? = some (tools.json.string stream) := by
  rw [payload, Std.ExtTreeMap.getElem?_insert_self]

theorem payload_msg (h : tools.json.parseObject (lineText content) = none) :
    (payload tools stream content timestamp)["msg"]? = some (tools.json.string (lineText content)) := by
  rw [payload, h, Std.ExtTreeMap.getElem?_insert, if_neg (by decide),
    Std.ExtTreeMap.getElem?_insert, if_neg (by decide), Std.ExtTreeMap.getElem?_insert_self]

theorem valueAsString_string (h : Faithful tools stream content timestamp) (value : String) :
    valueAsString tools (tools.json.string value) = some value := by
  rw [valueAsString, h.text]

end Encoding

/-- **WHAT IS WRITTEN IS READ BACK**: one line, with its time and stream, and with its text as
    the message or, where that is an object, with the fields of the object. -/
theorem encode_parse (tools : LineTools) (stream content timestamp : String)
    (hstream : stream ≠ "") (hserde : Faithful tools stream content timestamp) :
    let line := encodeLogLine tools.json stream content timestamp
    let parsed := parseLogLine tools line
    '\n' ∉ line.toList
      ∧ parsed.timestamp = some timestamp
      ∧ parsed.stream = stream
      ∧ match tools.json.parseObject (lineText content) with
        | none => parsed.message = lineText content
        | some map => parsed.json = some ((map.insert "time" (tools.json.string timestamp)).insert
            "stream" (tools.json.string stream)) := by
  obtain ⟨body, hbody, hprint, hparse⟩ := hserde.printed
  have hline := encodeLogLine_eq hserde hprint
  have hjson : parseJsonObject tools (String.ofList ('{' :: (body ++ ['}'])))
      = some (payload tools stream content timestamp) :=
    (parseJsonObject_braces body).trans hparse
  intro line parsed
  have hparsed : parsed = parseLogLine tools (String.ofList ('{' :: (body ++ ['}']))) :=
    congrArg (parseLogLine tools) hline
  rw [parseLogLine, hjson] at hparsed
  rw [hparsed, show line = _ from hline, String.toList_ofList]
  refine ⟨by simpa using hbody, ?_, ?_, ?_⟩
  · simp only [List.findSome?_cons, payload_time, Option.bind_some, valueAsString_string hserde]
  · have hnonempty : (!stream.isEmpty) = true := by simpa using hstream
    simp only [payload_stream, Option.bind_some, valueAsString_string hserde, Option.filter_some,
      hnonempty, if_true, Option.getD_some]
  · cases hobject : tools.json.parseObject (lineText content) with
    | none =>
        simp only [payload_msg hobject, Option.some_or, Option.bind_some,
          valueAsString_string hserde, Option.getD_some]
    | some map => simp only [payload, hobject]

/-! ## A line with quotes -/

/-- The object that is written for the line below. -/
def quotedObject : BTreeMap String :=
  ((∅ : BTreeMap String).insert "msg" "say \"hi\"").insert "time" "2025-01-01T00:00:00Z"
    |>.insert "stream" "stdout"

def quotedBody : List Char :=
  ("\"msg\":\"say \\\"hi\\\"\",\"stream\":\"stdout\"," ++ "\"time\":\"2025-01-01T00:00:00Z\"").toList

/-- The text that the object is printed as. -/
def quotedLine : String := String.ofList ('{' :: (quotedBody ++ ['}']))

/-- What `serde_json` gives for this object and for that text. -/
def quotedTools : LineTools where
  json :=
    { Value := String
      string := id
      parseObject := fun text => if text = quotedLine then some quotedObject else none
      printObject := fun _ => .ok quotedLine }
  view := .string
  captures := fun _ _ => none
  timestampNanos := fun _ => none

theorem lineText_quoted : lineText "say \"hi\"\r\n" = "say \"hi\"" := by decide +kernel

theorem faithful_quoted :
    Faithful quotedTools "stdout" "say \"hi\"\r\n" "2025-01-01T00:00:00Z" := by
  have hnone : quotedTools.json.parseObject (lineText "say \"hi\"\r\n") = none := by
    rw [quotedTools]
    dsimp only
    have hne : ¬ lineText "say \"hi\"\r\n" = quotedLine := by
      rw [lineText_quoted]
      decide +kernel
    rw [if_neg hne]
  have hpayload : payload quotedTools "stdout" "say \"hi\"\r\n" "2025-01-01T00:00:00Z"
      = quotedObject := by
    rw [payload, hnone, lineText_quoted]
    rfl
  refine ⟨fun _ => rfl, fun map h => ?_, quotedBody, by decide +kernel, rfl, ?_⟩
  · rw [hnone] at h
    exact nomatch h
  · rw [hpayload]
    show (if quotedLine = quotedLine then some quotedObject else none) = some quotedObject
    rw [if_pos rfl]

/-- Quotes and a line end: the text comes back, and the line end does not. -/
theorem encode_parse_quoted :
    (parseLogLine quotedTools (encodeLogLine quotedTools.json "stdout" "say \"hi\"\r\n"
      "2025-01-01T00:00:00Z")).stream = "stdout" :=
  (encode_parse quotedTools "stdout" "say \"hi\"\r\n" "2025-01-01T00:00:00Z" (by decide)
    faithful_quoted).2.2.1

end DevstackLogEncoding
