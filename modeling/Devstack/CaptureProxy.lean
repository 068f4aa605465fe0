import Devstack.BodySnapshot
import Devstack.Model
import Devstack.Lib.MultiMap

/-! # The capture proxy — what passes through it and what it writes down

    `proxy_request`, `proxy_upgrade_request` and `capture_entry` of
    `src/services/api_capture.rs`.  The proxy stands on the public port of a service; a
    request goes on to the service's own port with the headers of the client, less those
    that are for one connection only, and with four that the proxy sets.

    * `passes_through`: what the service is sent and the client is answered is the same
      whether the request is captured, ignored or not looked at;
    * `secrets_not_logged`: the log is the same for requests and answers that differ in
      the values of sensitive headers only. -/

namespace DevstackCaptureProxy

open DevstackApiCapture DevstackBodySnapshot DevstackModel DevstackMultiMap
open DevstackLogFmt (isWhitespace)

-- ── messages ──────────────────────────────────────────────────────────────────

abbrev Bytes := List UInt8

/-- `http::HeaderMap`; the names are in lower case. -/
abbrev Headers := MultiMap String Bytes

def ascii (text : String) : Bytes := text.toUTF8.toList

structure Request where
  method : String
  version : String
  path : String
  pathAndQuery : Option String
  headers : Headers
  body : List Bytes

structure Response where
  status : Nat
  headers : Headers
  body : List Bytes

/-- A request to the service. -/
structure UpstreamRequest where
  method : String
  version : String
  uri : String
  headers : Headers
  body : List Bytes

/-- The service's response, and how many chunks of the request it had read when the
    response ended. -/
structure Served where
  response : Response
  read : Nat

/-- What the outside answers: whether a text is a URI, what the service does with a
    request, and how long it takes. -/
structure Outside where
  parsesAsUri : String → Bool
  serve : UpstreamRequest → Option Served
  durationMs : Nat

/-- `ApiCaptureState`, without the log and the client. -/
structure ApiCaptureState where
  publicPort : Nat
  targetPort : Nat
  bodyLimit : Nat
  ignorePaths : List String

inductive HeaderForwardMode where
  | standard
  | upgrade
  deriving DecidableEq

-- ── which requests are captured ───────────────────────────────────────────────

def eqIgnoreAsciiCase (value expected : Bytes) : Bool :=
  decide (toAsciiLowercase value = toAsciiLowercase expected)

/-- `trim` of a header value; its other characters are visible. -/
def trimValue (value : Bytes) : Bytes :=
  let blank (b : UInt8) : Bool := decide (b = 0x20 ∨ b = 0x09)
  ((value.dropWhile blank).reverse.dropWhile blank).reverse

def headerToStr (headers : Headers) (name : String) : Option Bytes :=
  (headers.get name).bind toStr

def headerEqIgnoreAsciiCase (headers : Headers) (name expected : String) : Bool :=
  ((headerToStr headers name).map (eqIgnoreAsciiCase · (ascii expected))).getD false

def headerContainsToken (headers : Headers) (name token : String) : Bool :=
  (headers.getAll name).any (fun value =>
    ((toStr value).map (fun value =>
      (value.splitOn 0x2C).any (fun part => eqIgnoreAsciiCase (trimValue part) (ascii token)))).getD
        false)

def isUpgradeRequest (headers : Headers) : Bool :=
  headerContainsToken headers "connection" "upgrade"
    && headerEqIgnoreAsciiCase headers "upgrade" "websocket"

def trim (text : List Char) : List Char :=
  ((text.dropWhile isWhitespace).reverse.dropWhile isWhitespace).reverse

def shouldIgnorePath (patterns : List String) (path : String) : Bool :=
  patterns.any (fun pattern =>
    let pattern := trim pattern.toList
    if pattern.isEmpty then false
    else if pattern.getLast? = some '*' then pattern.dropLast.isPrefixOf path.toList
    else decide (pattern = path.toList))

def acceptsHtmlDocument (headers : Headers) : Bool :=
  ((headerToStr headers "accept").map (fun value =>
    let value := toAsciiLowercase value
    decide (ascii "text/html" <:+: value) && !decide (ascii "application/json" <:+: value))).getD
      false

def isBrowserNonXhrRequest (method : String) (headers : Headers) : Bool :=
  if headerEqIgnoreAsciiCase headers "x-requested-with" "XMLHttpRequest" then false
  else
    match headerToStr headers "sec-fetch-dest" with
    | some dest =>
        let dest := trimValue dest
        !dest.isEmpty && !eqIgnoreAsciiCase dest (ascii "empty")
    | none => decide (method = "GET") && acceptsHtmlDocument headers

def shouldCaptureRequest (patterns : List String) (method path : String) (headers : Headers) :
    Bool :=
  !shouldIgnorePath patterns path && !isBrowserNonXhrRequest method headers

-- ── headers on their way ──────────────────────────────────────────────────────

def isHopByHop (name : String) : Bool :=
  name ∈ ["connection", "keep-alive", "proxy-authenticate", "proxy-authorization", "te",
    "trailer", "transfer-encoding", "upgrade"]

/-- Whether a header goes on. -/
def forwards (mode : HeaderForwardMode) (name : String) : Bool :=
  !(decide (mode = .standard) && isHopByHop name)

/-- `copy_forward_headers` to a message without headers. -/
def copyForwardHeaders (headers : Headers) (mode : HeaderForwardMode) : Headers :=
  headers.copy ∅ (forwards mode)

def publicHost (inbound : Headers) (publicPort : Nat) : Bytes :=
  (inbound.get "host").getD (ascii s!"127.0.0.1:{publicPort}")

/-- `apply_forwarded_request_context`. -/
def applyForwardedRequestContext (inbound outbound : Headers) (publicPort : Nat) : Headers :=
  let host := publicHost inbound publicPort
  (((outbound.insert "host" host).insert "x-forwarded-host" host).insert
    "x-forwarded-proto" (ascii "http")).insert "x-forwarded-port" (ascii (toString publicPort))

/-- `build_upstream_request`. -/
def buildUpstreamRequest (outside : Outside) (state : ApiCaptureState) (request : Request)
    (body : List Bytes) (mode : HeaderForwardMode) : Except String UpstreamRequest :=
  let pathAndQuery := request.pathAndQuery.getD "/"
  let uri := s!"http://127.0.0.1:{state.targetPort}{pathAndQuery}"
  if outside.parsesAsUri uri then
    .ok ⟨request.method, request.version, uri,
      applyForwardedRequestContext request.headers (copyForwardHeaders request.headers mode)
        state.publicPort, body⟩
  else .error "build upstream URI"

/-- `response_with_body`. -/
def responseWithBody (status : Nat) (headers : Headers) (body : List Bytes)
    (mode : HeaderForwardMode) : Response :=
  ⟨status, copyForwardHeaders headers mode, body⟩

-- ── the log ───────────────────────────────────────────────────────────────────

/-- `MAX_CAPTURE_HEADER_BYTES`. -/
def maxCaptureHeaderBytes : Nat := 512

/-- `trim_to_char_boundary`. -/
def charBoundary (text : Bytes) : Nat → Nat
  | 0 => 0
  | n + 1 =>
      if text[n + 1]?.all (fun b => decide (b < 0x80 ∨ 0xC0 ≤ b)) then n + 1
      else charBoundary text n

def truncateChars (value : Bytes) (maxBytes : Nat) : Bytes :=
  if value.length ≤ maxBytes then value
  else value.take (charBoundary value maxBytes) ++ ascii "..."

def headerValueToString (value : Bytes) : Bytes :=
  truncateChars ((toStr value).getD (ascii "<non-utf8>")) maxCaptureHeaderBytes

def isSensitiveHeader (name : String) : Bool :=
  name ∈ ["authorization", "cookie", "set-cookie", "proxy-authorization"]

def sanitizedHeaders (headers : Headers) : BTreeMap Bytes :=
  headers.iter.foldl (fun out entry =>
    out.insert entry.1
      (if isSensitiveHeader entry.1 then ascii "[redacted]" else headerValueToString entry.2)) ∅

/-- What was said, by one side. -/
structure Message (Value : Type) where
  headers : BTreeMap Bytes
  body : Snapshot Value

/-- A log entry. -/
inductive Entry (Value : Type) where
  | api (level event msg method path target : String) (status durationMs : Nat)
      (request response : Message Value)
  | error (level event msg error : String)

variable {Value : Type} (fromStr : Text → Option Value)

/-- `capture_entry`. -/
def captureEntry (request : Request) (requestBody : CapturedBody) (status : Nat)
    (responseHeaders : Headers) (responseBody : CapturedBody) (durationMs : Nat) : Entry Value :=
  let target := request.pathAndQuery.getD "/"
  .api
    (if 500 ≤ status ∧ status < 600 then "error"
      else if 400 ≤ status ∧ status < 500 then "warn" else "info")
    "api_capture" s!"{request.method} {target} -> {status} ({durationMs} ms)"
    request.method request.path target status durationMs
    ⟨sanitizedHeaders request.headers, bodySnapshot fromStr request.headers.iter requestBody⟩
    ⟨sanitizedHeaders responseHeaders, bodySnapshot fromStr responseHeaders.iter responseBody⟩

/-- The entry of `proxy_request` for a request that failed. -/
def errorEntry (err : String) : Entry Value :=
  .error "error" "api_capture" s!"API capture proxy error: {err}" err

-- ── the proxy ─────────────────────────────────────────────────────────────────

/-- What a request leads to: what the service is sent, what the client is answered, and
    the entries for the log. -/
structure Outcome (Value : Type) where
  sent : Option UpstreamRequest
  answer : Response
  logged : List (Entry Value)

/-- The answer of `proxy_request` to a request that failed. -/
def badGateway (err : String) : Response :=
  responseWithBody 502 ∅ [ascii s!"devstack API capture proxy error: {err}\n"] .standard

def failed (sent : Option UpstreamRequest) (err : String) : Outcome Value :=
  ⟨sent, badGateway err, [errorEntry err]⟩

/-- `client.request`, with the error it is given context with. -/
def clientRequest (outside : Outside) (sent : UpstreamRequest) (context : String) :
    Except String Served :=
  match outside.serve sent with
  | some served => .ok served
  | none => .error context

/-- `SWITCHING_PROTOCOLS`. -/
def switchingProtocols : Nat := 101

/-- `proxy_upgrade_request`. -/
def proxyUpgradeRequest (outside : Outside) (state : ApiCaptureState) (request : Request)
    (capture : Bool) : Outcome Value :=
  match buildUpstreamRequest outside state request [] .upgrade with
  | .error err => failed none err
  | .ok sent =>
      match clientRequest outside sent "forward upgrade request to service" with
      | .error err => failed (some sent) err
      | .ok served =>
          let response := served.response
          if response.status ≠ switchingProtocols then
            ⟨some sent, responseWithBody response.status response.headers response.body .standard,
              []⟩
          else
            ⟨some sent, responseWithBody response.status response.headers [] .upgrade,
              if capture then
                [captureEntry fromStr request (.new state.bodyLimit) response.status
                  response.headers (.new state.bodyLimit) outside.durationMs]
              else []⟩

/-- `proxy_request_inner` with what `proxy_request` does about its errors.  The body of a
    captured request or response passes in the chunks it came in; each is copied first. -/
def proxyRequest (outside : Outside) (state : ApiCaptureState) (request : Request) :
    Outcome Value :=
  let capture := shouldCaptureRequest state.ignorePaths request.method request.path
    request.headers
  if isUpgradeRequest request.headers then
    proxyUpgradeRequest fromStr outside state request capture
  else if capture = false then
    match buildUpstreamRequest outside state request request.body .standard with
    | .error err => failed none err
    | .ok sent =>
        match clientRequest outside sent "forward request to service" with
        | .error err => failed (some sent) err
        | .ok served =>
            ⟨some sent, responseWithBody served.response.status served.response.headers
              served.response.body .standard, []⟩
  else
    match buildUpstreamRequest outside state request request.body .standard with
    | .error err => failed none err
    | .ok sent =>
        match clientRequest outside sent "forward request to service" with
        | .error err => failed (some sent) err
        | .ok served =>
            let response := served.response
            ⟨some sent, responseWithBody response.status response.headers response.body .standard,
              [captureEntry fromStr request
                (captureChunks state.bodyLimit (request.body.take served.read)) response.status
                response.headers (captureChunks state.bodyLimit response.body)
                outside.durationMs]⟩

-- ── what passes through ───────────────────────────────────────────────────────

/-- The values of a header that the service gets. -/
def sentValues (publicPort : Nat) (mode : HeaderForwardMode) (inbound : Headers) (name : String) :
    List Bytes :=
  if name = "x-forwarded-port" then [ascii (toString publicPort)]
  else if name = "x-forwarded-proto" then [ascii "http"]
  else if name = "x-forwarded-host" ∨ name = "host" then [publicHost inbound publicPort]
  else if forwards mode name then inbound.getAll name
  else []

section Passing

variable {outside : Outside} {state : ApiCaptureState} {request : Request}

theorem copyForwardHeaders_eq (headers : Headers) (mode : HeaderForwardMode) :
    copyForwardHeaders headers mode = headers.filterKeys (forwards mode) :=
  MultiMap.copy_empty headers (forwards mode)

theorem getAll_copyForwardHeaders (headers : Headers) (mode : HeaderForwardMode) (name : String) :
    (copyForwardHeaders headers mode).getAll name
      = if forwards mode name then headers.getAll name else [] := by
  rw [copyForwardHeaders_eq, MultiMap.getAll_filterKeys]

/-- The proxy's own headers stand in the place of the client's. -/
theorem getAll_applyForwardedRequestContext (inbound : Headers) (mode : HeaderForwardMode)
    (publicPort : Nat) (name : String) :
    (applyForwardedRequestContext inbound (copyForwardHeaders inbound mode) publicPort).getAll name
      = sentValues publicPort mode inbound name := by
  simp only [applyForwardedRequestContext, MultiMap.getAll_insert, getAll_copyForwardHeaders,
    sentValues]
  by_cases hport : name = "x-forwarded-port"
  · rw [if_pos hport, if_pos hport]
  · rw [if_neg hport, if_neg hport]
    by_cases hproto : name = "x-forwarded-proto"
    · rw [if_pos hproto, if_pos hproto]
    · rw [if_neg hproto, if_neg hproto]
      by_cases hhost : name = "x-forwarded-host"
      · rw [if_pos hhost, if_pos (Or.inl hhost)]
      · rw [if_neg hhost]
        simp only [hhost, false_or]

/-- The request that the service is sent for a client's. -/
structure Forwarded (publicPort targetPort : Nat) (request : Request) (sent : UpstreamRequest) :
    Prop where
  method : sent.method = request.method
  version : sent.version = request.version
  uri : sent.uri =
    (let pathAndQuery := request.pathAndQuery.getD "/"
    s!"http://127.0.0.1:{targetPort}{pathAndQuery}")
  headers : ∀ name, sent.headers.getAll name = sentValues publicPort
    (if isUpgradeRequest request.headers then .upgrade else .standard) request.headers name
  body : sent.body = if isUpgradeRequest request.headers then [] else request.body

/-- Whether the connection is a tunnel from here on. -/
def switched (request : Request) (response : Response) : Bool :=
  isUpgradeRequest request.headers && decide (response.status = switchingProtocols)

/-- The answer that the client gets for the service's. -/
structure Returned (request : Request) (response answer : Response) : Prop where
  status : answer.status = response.status
  headers : ∀ name, answer.headers.getAll name
    = if switched request response || !isHopByHop name then response.headers.getAll name else []
  body : answer.body = if switched request response then [] else response.body

/-- What may become of a request: nothing is said of captures. -/
inductive Passes (publicPort targetPort : Nat) (outside : Outside) (request : Request) :
    Option UpstreamRequest → Response → Prop where
  | unparsed : Passes publicPort targetPort outside request none (badGateway "build upstream URI")
  | unanswered {sent : UpstreamRequest} (hsent : Forwarded publicPort targetPort request sent)
      (hserve : outside.serve sent = none) :
      Passes publicPort targetPort outside request (some sent)
        (badGateway (if isUpgradeRequest request.headers then
          "forward upgrade request to service" else "forward request to service"))
  | answered {sent : UpstreamRequest} {served : Served} {answer : Response}
      (hsent : Forwarded publicPort targetPort request sent)
      (hserve : outside.serve sent = some served)
      (hanswer : Returned request served.response answer) :
      Passes publicPort targetPort outside request (some sent) answer

theorem forwarded_of_built {sent : UpstreamRequest}
    (h : buildUpstreamRequest outside state request
      (if isUpgradeRequest request.headers then [] else request.body)
      (if isUpgradeRequest request.headers then .upgrade else .standard) = .ok sent) :
    Forwarded state.publicPort state.targetPort request sent := by
  rw [buildUpstreamRequest] at h
  split at h
  · obtain rfl := Except.ok.inj h
    exact ⟨rfl, rfl, rfl, getAll_applyForwardedRequestContext _ _ _, rfl⟩
  · cases h

theorem error_of_built {body : List Bytes} {mode : HeaderForwardMode} {err : String}
    (h : buildUpstreamRequest outside state request body mode = .error err) :
    err = "build upstream URI" := by
  rw [buildUpstreamRequest] at h
  split at h
  · cases h
  · exact (Except.error.inj h).symm

theorem clientRequest_ok {sent : UpstreamRequest} {context : String} {served : Served}
    (h : clientRequest outside sent context = .ok served) : outside.serve sent = some served := by
  rw [clientRequest] at h
  split at h
  · next hserve => rw [hserve, Except.ok.inj h]
  · cases h

theorem clientRequest_error {sent : UpstreamRequest} {context err : String}
    (h : clientRequest outside sent context = .error err) :
    outside.serve sent = none ∧ err = context := by
  rw [clientRequest] at h
  split at h
  · cases h
  · next hserve => exact ⟨hserve, (Except.error.inj h).symm⟩

theorem returned_standard {response : Response} (h : switched request response = false) :
    Returned request response
      (responseWithBody response.status response.headers response.body .standard) where
  status := rfl
  headers := by
    intro name
    show (copyForwardHeaders _ _).getAll name = _
    rw [getAll_copyForwardHeaders, h]
    simp [forwards]
  body := by rw [h]; rfl

theorem returned_upgrade {response : Response} (h : switched request response = true) :
    Returned request response
      (responseWithBody response.status response.headers [] .upgrade) where
  status := rfl
  headers := by
    intro name
    show (copyForwardHeaders _ _).getAll name = _
    rw [getAll_copyForwardHeaders, h]
    simp [forwards]
  body := by rw [h]; rfl

/-- The proxy without its log: what a request would become if nothing were captured. -/
def relay (outside : Outside) (state : ApiCaptureState) (request : Request) :
    Option UpstreamRequest × Response :=
  let upgrade := isUpgradeRequest request.headers
  match buildUpstreamRequest outside state request (if upgrade then [] else request.body)
      (if upgrade then .upgrade else .standard) with
  | .error err => (none, badGateway err)
  | .ok sent =>
      match clientRequest outside sent (if upgrade then "forward upgrade request to service"
        else "forward request to service") with
      | .error err => (some sent, badGateway err)
      | .ok served =>
          let response := served.response
          (some sent,
            if switched request response then
              responseWithBody response.status response.headers [] .upgrade
            else responseWithBody response.status response.headers response.body .standard)

/-- A captured request, an ignored one and an upgrade all pass as the relay passes them. -/
theorem proxyRequest_relays (outside : Outside) (state : ApiCaptureState) (request : Request) :
    (proxyRequest fromStr outside state request).sent = (relay outside state request).1
      ∧ (proxyRequest fromStr outside state request).answer
        = (relay outside state request).2 := by
  rw [proxyRequest, relay]
  cases hupgrade : isUpgradeRequest request.headers with
  | true =>
      simp only [if_true, proxyUpgradeRequest]
      cases hbuilt : buildUpstreamRequest outside state request [] .upgrade with
      | error err => exact ⟨rfl, rfl⟩
      | ok sent =>
          cases hrequest : clientRequest outside sent "forward upgrade request to service" with
          | error err => simp only [hrequest]; exact ⟨rfl, rfl⟩
          | ok served =>
              simp only [hrequest, switched, hupgrade, Bool.true_and, decide_eq_true_eq]
              by_cases hstatus : served.response.status = switchingProtocols
              · rw [if_neg (not_not.mpr hstatus), if_pos hstatus]
                exact ⟨rfl, rfl⟩
              · rw [if_pos hstatus, if_neg hstatus]
                exact ⟨rfl, rfl⟩
  | false =>
      simp only [Bool.false_eq_true, if_false]
      cases hbuilt : buildUpstreamRequest outside state request request.body .standard with
      | error err => split <;> exact ⟨rfl, rfl⟩
      | ok sent =>
          cases hrequest : clientRequest outside sent "forward request to service" with
          | error err => simp only [hrequest]; split <;> exact ⟨rfl, rfl⟩
          | ok served =>
              simp only [hrequest, switched, hupgrade, Bool.false_and]
              split <;> exact ⟨rfl, rfl⟩

theorem passes_relay (outside : Outside) (state : ApiCaptureState) (request : Request) :
    Passes state.publicPort state.targetPort outside request (relay outside state request).1
      (relay outside state request).2 := by
  rw [relay]
  simp only
  split
  · next err hbuilt =>
      rw [error_of_built hbuilt]
      exact .unparsed
  · next sent hbuilt =>
      have hsent := forwarded_of_built hbuilt
      split
      · next err hrequest =>
          obtain ⟨hserve, rfl⟩ := clientRequest_error hrequest
          exact .unanswered hsent hserve
      · next served hrequest =>
          refine .answered hsent (clientRequest_ok hrequest) ?_
          cases hswitched : switched request served.response with
          | true => exact returned_upgrade hswitched
          | false => exact returned_standard hswitched

/-- **THE PROXY ADDS AND TAKES NOTHING ELSE**: for every request and every service, what
    the service is sent and what the client is answered are the client's request and the
    service's answer, with the headers for one connection left out and the proxy's four
    put in; and they are the same whatever paths are ignored and however much of a body
    is kept. -/
theorem passes_through (outside : Outside) (state : ApiCaptureState) (request : Request) :
    Passes state.publicPort state.targetPort outside request
        (proxyRequest fromStr outside state request).sent
        (proxyRequest fromStr outside state request).answer
      ∧ ∀ (ignorePaths : List String) (bodyLimit : Nat),
        let other := proxyRequest fromStr outside
          { state with ignorePaths := ignorePaths, bodyLimit := bodyLimit } request
        other.sent = (proxyRequest fromStr outside state request).sent
          ∧ other.answer = (proxyRequest fromStr outside state request).answer := by
  obtain ⟨hsent, hanswer⟩ := proxyRequest_relays fromStr outside state request
  rw [hsent, hanswer]
  exact ⟨passes_relay outside state request,
    fun _ _ => proxyRequest_relays fromStr outside _ request⟩

end Passing

-- ── what is written down ──────────────────────────────────────────────────────

/-- The same headers, but for the values of sensitive ones. -/
def Alike (headers headers' : Headers) : Prop :=
  MultiMap.Related (fun e e' => isSensitiveHeader e.1 = false → e.2 = e'.2) headers headers'

structure AlikeRequests (request other : Request) : Prop where
  method : request.method = other.method
  path : request.path = other.path
  pathAndQuery : request.pathAndQuery = other.pathAndQuery
  version : request.version = other.version
  headers : Alike request.headers other.headers
  body : request.body = other.body

structure AlikeSent (sent sent' : UpstreamRequest) : Prop where
  method : sent.method = sent'.method
  version : sent.version = sent'.version
  uri : sent.uri = sent'.uri
  headers : Alike sent.headers sent'.headers
  body : sent.body = sent'.body

structure AlikeServed (served served' : Served) : Prop where
  status : served.response.status = served'.response.status
  headers : Alike served.response.headers served'.response.headers
  body : served.response.body = served'.response.body
  read : served.read = served'.read

/-- A service whose answers to alike requests are alike, and a clock. -/
structure AlikeOutside (outside outside' : Outside) : Prop where
  parses : outside.parsesAsUri = outside'.parsesAsUri
  duration : outside.durationMs = outside'.durationMs
  serve : ∀ {sent sent'}, AlikeSent sent sent' →
    Option.Rel AlikeServed (outside.serve sent) (outside'.serve sent')

section Alike

variable {headers headers' : Headers}

theorem Alike.get? (h : Alike headers headers') {name : String}
    (hname : isSensitiveHeader name = false) : headers.get? name = headers'.get? name :=
  MultiMap.Related.get? h (fun _ _ hsame => hsame hname)

theorem Alike.get (h : Alike headers headers') {name : String}
    (hname : isSensitiveHeader name = false) : headers.get name = headers'.get name := by
  rw [MultiMap.get, MultiMap.get, h.get? hname]

theorem Alike.headerToStr (h : Alike headers headers') (name : String)
    (hname : isSensitiveHeader name = false) :
    headerToStr headers name = headerToStr headers' name := by
  rw [DevstackCaptureProxy.headerToStr, DevstackCaptureProxy.headerToStr, h.get hname]

theorem Alike.headerEq (h : Alike headers headers') {name : String} (expected : String)
    (hname : isSensitiveHeader name = false) :
    headerEqIgnoreAsciiCase headers name expected
      = headerEqIgnoreAsciiCase headers' name expected := by
  rw [headerEqIgnoreAsciiCase, headerEqIgnoreAsciiCase, h.headerToStr name hname]

theorem Alike.isUpgradeRequest (h : Alike headers headers') :
    isUpgradeRequest headers = isUpgradeRequest headers' := by
  rw [DevstackCaptureProxy.isUpgradeRequest, DevstackCaptureProxy.isUpgradeRequest,
    h.headerEq "websocket" (by decide), headerContainsToken, headerContainsToken, MultiMap.getAll,
    MultiMap.getAll, h.get? (by decide)]

theorem Alike.shouldCaptureRequest (h : Alike headers headers') (patterns : List String)
    (method path : String) :
    shouldCaptureRequest patterns method path headers
      = shouldCaptureRequest patterns method path headers' := by
  rw [DevstackCaptureProxy.shouldCaptureRequest, DevstackCaptureProxy.shouldCaptureRequest,
    isBrowserNonXhrRequest, isBrowserNonXhrRequest, h.headerEq "XMLHttpRequest" (by decide),
    h.headerToStr "sec-fetch-dest" (by decide), acceptsHtmlDocument, acceptsHtmlDocument,
    h.headerToStr "accept" (by decide)]

theorem foldl_yields {e : String × Bytes × List Bytes} (hsensitive : isSensitiveHeader e.1 = true)
    (out : BTreeMap Bytes) :
    (MultiMap.yields e).foldl (fun out entry =>
        out.insert entry.1
          (if isSensitiveHeader entry.1 then ascii "[redacted]" else headerValueToString entry.2))
        out
      = out.insert e.1 (ascii "[redacted]") := by
  have hrest : ∀ (values : List Bytes) (out : BTreeMap Bytes),
      (values.map (fun v => (e.1, v))).foldl (fun out entry =>
          out.insert entry.1
            (if isSensitiveHeader entry.1 then ascii "[redacted]" else headerValueToString entry.2))
          (out.insert e.1 (ascii "[redacted]"))
        = out.insert e.1 (ascii "[redacted]") := by
    intro values
    induction values with
    | nil => exact fun out => rfl
    | cons v values ih =>
        intro out
        rw [List.map_cons, List.foldl_cons, hsensitive, if_pos rfl]
        have htwice : (out.insert e.1 (ascii "[redacted]")).insert e.1 (ascii "[redacted]")
            = out.insert e.1 (ascii "[redacted]") := by
          ext1 name
          rw [Std.ExtTreeMap.getElem?_insert]
          split
          · next heq =>
              rw [Std.LawfulEqCmp.compare_eq_iff_eq] at heq
              rw [← heq, Std.ExtTreeMap.getElem?_insert_self]
          · rfl
        rw [htwice]
        exact ih out
  rw [MultiMap.yields, List.foldl_cons, hsensitive, if_pos rfl]
  exact hrest e.2.2 out

/-- The headers of an entry hold no secret. -/
theorem Alike.sanitizedHeaders (h : Alike headers headers') :
    sanitizedHeaders headers = sanitizedHeaders headers' := by
  rw [DevstackCaptureProxy.sanitizedHeaders, DevstackCaptureProxy.sanitizedHeaders, MultiMap.iter,
    MultiMap.iter, List.foldl_flatMap, List.foldl_flatMap]
  have hentries : List.Forall₂ (fun e e' => e.1 = e'.1
      ∧ (isSensitiveHeader e.1 = false → e.2 = e'.2)) headers.entries headers'.entries := h
  generalize headers.entries = es at hentries ⊢
  generalize headers'.entries = es' at hentries ⊢
  generalize (∅ : BTreeMap Bytes) = out
  induction hentries generalizing out with
  | nil => rfl
  | @cons e e' es es' he _ ih =>
      obtain ⟨name, values⟩ := e
      obtain ⟨name', values'⟩ := e'
      obtain ⟨hname, hvalues⟩ := he
      obtain rfl : name = name' := hname
      rw [List.foldl_cons, List.foldl_cons]
      cases hsensitive : isSensitiveHeader name with
      | true =>
          rw [foldl_yields (e := (name, values)) hsensitive,
            foldl_yields (e := (name, values')) hsensitive]
          exact ih _
      | false =>
          obtain rfl : values = values' := hvalues hsensitive
          exact ih _

theorem Alike.bodySnapshot (h : Alike headers headers') (body : CapturedBody) :
    bodySnapshot fromStr headers.iter body = bodySnapshot fromStr headers'.iter body := by
  have hlooks : ∀ text, bodyLooksJson headers.iter text = bodyLooksJson headers'.iter text := by
    intro text
    have hget : ∀ m : Headers, HeaderMap.get m.iter "content-type" = m.get "content-type" :=
      fun m => MultiMap.find?_iter m "content-type"
    rw [bodyLooksJson, bodyLooksJson, hget, hget, h.get (by decide)]
  simp only [DevstackBodySnapshot.bodySnapshot, hlooks]

theorem Alike.publicHost (h : Alike headers headers') (publicPort : Nat) :
    publicHost headers publicPort = publicHost headers' publicPort := by
  rw [DevstackCaptureProxy.publicHost, DevstackCaptureProxy.publicHost, h.get (by decide)]

/-- The service gets alike headers. -/
theorem Alike.forwarded (h : Alike headers headers') (mode : HeaderForwardMode)
    (publicPort : Nat) :
    Alike (applyForwardedRequestContext headers (copyForwardHeaders headers mode) publicPort)
      (applyForwardedRequestContext headers' (copyForwardHeaders headers' mode) publicPort) := by
  simp only [applyForwardedRequestContext, copyForwardHeaders_eq, h.publicHost publicPort]
  exact ((((h.filterKeys (forwards mode)).insert (fun _ => rfl)).insert (fun _ => rfl)).insert
    (fun _ => rfl)).insert (fun _ => rfl)

end Alike

section Logged

variable {outside outside' : Outside} {state : ApiCaptureState} {request other : Request}

theorem alike_built (state : ApiCaptureState) (houtside : AlikeOutside outside outside')
    (h : AlikeRequests request other) (body : List Bytes) (mode : HeaderForwardMode) :
    (buildUpstreamRequest outside state request body mode = .error "build upstream URI"
        ∧ buildUpstreamRequest outside' state other body mode = .error "build upstream URI")
      ∨ ∃ sent sent', buildUpstreamRequest outside state request body mode = .ok sent
        ∧ buildUpstreamRequest outside' state other body mode = .ok sent'
        ∧ AlikeSent sent sent' := by
  rw [buildUpstreamRequest, buildUpstreamRequest, houtside.parses, h.pathAndQuery]
  split
  · exact Or.inr ⟨_, _, rfl, rfl, h.method, h.version, rfl, h.headers.forwarded mode _, rfl⟩
  · exact Or.inl ⟨rfl, rfl⟩

theorem alike_clientRequest (houtside : AlikeOutside outside outside')
    {sent sent' : UpstreamRequest} (h : AlikeSent sent sent') (context : String) :
    (clientRequest outside sent context = .error context
        ∧ clientRequest outside' sent' context = .error context)
      ∨ ∃ served served', clientRequest outside sent context = .ok served
        ∧ clientRequest outside' sent' context = .ok served' ∧ AlikeServed served served' := by
  have hserve := houtside.serve h
  rw [clientRequest, clientRequest]
  cases hanswer : outside.serve sent with
  | none =>
      cases hanswer' : outside'.serve sent' with
      | none => exact Or.inl ⟨rfl, rfl⟩
      | some served' => rw [hanswer, hanswer'] at hserve; cases hserve
  | some served =>
      cases hanswer' : outside'.serve sent' with
      | none => rw [hanswer, hanswer'] at hserve; cases hserve
      | some served' =>
          rw [hanswer, hanswer'] at hserve
          cases hserve with
          | some hserved => exact Or.inr ⟨served, served', rfl, rfl, hserved⟩

theorem alike_entry (h : AlikeRequests request other) {headers headers' : Headers}
    (hheaders : Alike headers headers') (requestBody : CapturedBody) (status : Nat)
    (responseBody : CapturedBody) (durationMs : Nat) :
    captureEntry fromStr request requestBody status headers responseBody durationMs
      = captureEntry fromStr other requestBody status headers' responseBody durationMs := by
  simp only [captureEntry, h.method, h.path, h.pathAndQuery, h.headers.sanitizedHeaders,
    h.headers.bodySnapshot fromStr, hheaders.sanitizedHeaders, hheaders.bodySnapshot fromStr]

/-- **NO SECRET IS LOGGED**: two clients that differ in the values of sensitive headers
    only, and a service whose answers differ in such values only, leave the same log. -/
theorem secrets_not_logged (state : ApiCaptureState) (houtside : AlikeOutside outside outside')
    (h : AlikeRequests request other) :
    (proxyRequest fromStr outside state request).logged
      = (proxyRequest fromStr outside' state other).logged := by
  rw [proxyRequest, proxyRequest, h.method, h.path, h.body,
    h.headers.shouldCaptureRequest, h.headers.isUpgradeRequest]
  cases hupgrade : isUpgradeRequest other.headers with
  | true =>
      simp only [if_true, proxyUpgradeRequest]
      rcases alike_built state houtside h [] .upgrade with ⟨hbuilt, hbuilt'⟩
        | ⟨sent, sent', hbuilt, hbuilt', hsent⟩
      · rw [hbuilt, hbuilt']
      · rw [hbuilt, hbuilt']
        simp only
        rcases alike_clientRequest houtside hsent "forward upgrade request to service" with
          ⟨hrequest, hother⟩ | ⟨served, served', hrequest, hother, hserved⟩
        · rw [hrequest, hother]
          rfl
        · rw [hrequest, hother]
          simp only [hserved.status]
          split
          · rfl
          · simp only [alike_entry fromStr h hserved.headers, houtside.duration]
  | false =>
      simp only [Bool.false_eq_true, if_false]
      rcases alike_built state houtside h other.body .standard with ⟨hbuilt, hbuilt'⟩
        | ⟨sent, sent', hbuilt, hbuilt', hsent⟩
      · rw [hbuilt, hbuilt']
      · rw [hbuilt, hbuilt']
        simp only
        rcases alike_clientRequest houtside hsent "forward request to service" with
          ⟨hrequest, hother⟩ | ⟨served, served', hrequest, hother, hserved⟩
        · rw [hrequest, hother]
          split <;> rfl
        · rw [hrequest, hother]
          simp only [hserved.status, hserved.body, hserved.read,
            alike_entry fromStr h hserved.headers, houtside.duration]
          split <;> rfl

end Logged

-- ── a client that logs in ─────────────────────────────────────────────────────

def withToken (token : Bytes) : Headers :=
  ((∅ : Headers).append "host" (ascii "app.localhost")).append "authorization" token

def login (token : Bytes) : Request :=
  ⟨"POST", "HTTP/1.1", "/login", some "/login?next=1", withToken token, [ascii "{}"]⟩

/-- A service that sets the client's token as its cookie. -/
def setsCookie : Outside where
  parsesAsUri _ := true
  serve sent :=
    some ⟨⟨200, (∅ : Headers).append "set-cookie" ((sent.headers.get "authorization").getD []),
      [ascii "welcome"]⟩, 1⟩
  durationMs := 3

theorem alikeOutside_setsCookie : AlikeOutside setsCookie setsCookie where
  parses := rfl
  duration := rfl
  serve := by
    intro sent sent' _
    have hsensitive : isSensitiveHeader "set-cookie" = true := by decide
    exact .some
      ⟨rfl, .cons ⟨rfl, fun h => absurd (hsensitive.symm.trans h) (by decide)⟩ .nil, rfl, rfl⟩

theorem alikeRequests_login (token token' : Bytes) :
    AlikeRequests (login token) (login token') where
  method := rfl
  path := rfl
  pathAndQuery := rfl
  version := rfl
  headers := by
    have hsensitive : isSensitiveHeader "authorization" = true := by decide
    exact .cons ⟨rfl, fun _ => rfl⟩
      (.cons ⟨rfl, fun h => absurd (hsensitive.symm.trans h) (by decide)⟩ .nil)
  body := rfl

/-- JSON is not parsed here. -/
def unparsed : Text → Option Unit := fun _ => none

theorem secrets_not_logged_login :
    (proxyRequest unparsed setsCookie ⟨3000, 3001, 1024, []⟩ (login (ascii "Bearer a"))).logged
      = (proxyRequest unparsed setsCookie ⟨3000, 3001, 1024, []⟩
          (login (ascii "Bearer b"))).logged :=
  secrets_not_logged unparsed ⟨3000, 3001, 1024, []⟩ alikeOutside_setsCookie
    (alikeRequests_login (ascii "Bearer a") (ascii "Bearer b"))

end DevstackCaptureProxy
