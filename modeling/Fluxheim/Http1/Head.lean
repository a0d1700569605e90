import Mathlib.Data.FinEnum
import Fluxheim.Http1.Target

/-!
# Request heads

The model of `http1.rs` and `http1_connection.rs`: the head is cut at the first empty line, split
into lines, and each line is parsed; a head that is complete is then validated as a message.  Text
is modelled by its bytes; every value is checked to be ASCII before it is trimmed, so trimming is
that of ASCII white space.
-/

namespace Fluxheim

open Ascii Fallible Search

/-- The versions. -/
inductive Http1Version
  | http10
  | http11
  deriving DecidableEq

/-- The bytes that a header value refuses: all controls but the tab, and all that is not ASCII. -/
def headerValueForbidden (b : UInt8) : Bool :=
  b ≤ 0x08 || 0x0a ≤ b && b ≤ 0x1f || 0x7f ≤ b

/-- A field, with what `Http1Header::new` checks: nothing else makes one. -/
structure Http1Header where
  name : Bytes
  value : Bytes
  name_token : httpTokenValid name = true
  value_clean : ∀ b ∈ value, headerValueForbidden b = false
  value_trimmed : trim value = value
  deriving DecidableEq

/-- A field, checked and trimmed. -/
def Http1Header.new (name value : Bytes) : Except Http1ParseError Http1Header :=
  if hname : httpTokenValid name = true then
    if hvalue : ∀ b ∈ value, headerValueForbidden b = false then
      .ok ⟨name, trim value, hname, fun b hb => hvalue b (mem_of_mem_trim hb), trim_trim value⟩
    else .error .invalidHeaderValue
  else .error .invalidHeaderName

/-- A header has the given name, in any case. -/
def Http1Header.named (header : Http1Header) (name : String) : Bool :=
  eqIgnoreCase header.name (ascii name)

/-- How the body of a request ends. -/
inductive Http1BodyFraming
  | noBody
  | contentLength (length : ℕ)
  | chunked
  deriving DecidableEq

/-- A length: digits and nothing else. -/
def parseContentLength (value : Bytes) : Except Http1ParseError ℕ :=
  let trimmed := trim value
  if trimmed = [] ∨ ¬ trimmed.all isDigit then .error .invalidContentLength
  else okOr (parseUnsigned u64Max trimmed) .invalidContentLength

/-- The loop of `parse_transfer_encoding`: the number of codings, and whether the last one was
`chunked`. -/
def parseCodings : ℕ → Bool → List Bytes → Except Http1ParseError (ℕ × Bool)
  | codings, chunked, [] => .ok (codings, chunked)
  | codings, _, coding :: rest =>
    if trim coding = [] ∨ ¬ httpTokenValid (trim coding) then
      .error .unsupportedTransferEncoding
    else parseCodings (saturatingAdd codings 1) (eqIgnoreCase (trim coding) (ascii "chunked")) rest

/-- The codings; only `chunked` alone is supported. -/
def parseTransferEncoding (value : Bytes) : Except Http1ParseError Http1BodyFraming := do
  let (codings, chunked) ← parseCodings 0 false (value.splitOn 44)
  if codings = 1 ∧ chunked then .ok .chunked else .error .unsupportedTransferEncoding

/-- The loop of `http1_request_body_framing` over the headers. -/
def bodyFramingLoop (version : Http1Version) : Option ℕ → Option Http1BodyFraming →
    List Http1Header → Except Http1ParseError (Option ℕ × Option Http1BodyFraming)
  | contentLength, transferEncoding, [] => .ok (contentLength, transferEncoding)
  | contentLength, transferEncoding, header :: headers =>
    if header.named "content-length" then do
      let parsed ← parseContentLength header.value
      if contentLength.isSome then .error .duplicateContentLength
      else bodyFramingLoop version (some parsed) transferEncoding headers
    else if header.named "transfer-encoding" then
      if version = .http10 then .error .unsupportedTransferEncoding
      else if transferEncoding.isSome then .error .unsupportedTransferEncoding
      else do
        let parsed ← parseTransferEncoding header.value
        bodyFramingLoop version contentLength (some parsed) headers
    else bodyFramingLoop version contentLength transferEncoding headers

/-- The framing of a request. -/
def http1RequestBodyFraming (version : Http1Version) (headers : List Http1Header) :
    Except Http1ParseError Http1BodyFraming := do
  match ← bodyFramingLoop version none none headers with
  | (some _, some _) => .error .conflictingBodyFraming
  | (none, some framing) => .ok framing
  | (none, none) => .ok .noBody
  | (some 0, none) => .ok .noBody
  | (some length, none) => .ok (.contentLength length)

/-- Whether the connection is kept. -/
inductive Http1ConnectionDirective
  | close
  | persistent
  deriving DecidableEq

/-- The tokens of one `Connection` field, in lower case. -/
def connectionFieldOptions : List Bytes → Except Http1ParseError (List Bytes)
  | [] => .ok []
  | token :: rest =>
    if ¬ httpTokenValid (trim token) then .error .invalidConnection
    else do
      let options ← connectionFieldOptions rest
      .ok ((trim token).map lower :: options)

/-- The set of options as a list. -/
def http1ConnectionOptions : List Http1Header → Except Http1ParseError (List Bytes)
  | [] => .ok []
  | header :: headers =>
    if header.named "connection" then do
      let options ← connectionFieldOptions (header.value.splitOn 44)
      let rest ← http1ConnectionOptions headers
      .ok (options ++ rest)
    else http1ConnectionOptions headers

/-- What the `Connection` fields and the version say. -/
def http1ConnectionDirective (version : Http1Version) (headers : List Http1Header) :
    Except Http1ParseError Http1ConnectionDirective := do
  let options ← http1ConnectionOptions headers
  if options.contains (ascii "close") then .ok .close
  else if version = .http11 ∨ options.contains (ascii "keep-alive") then .ok .persistent
  else .ok .close

/-- The loop of `http1_optional_host`. -/
def optionalHostLoop : Option Bytes → List Http1Header → Except Http1ParseError (Option Bytes)
  | host, [] => .ok host
  | host, header :: headers =>
    if header.named "host" then
      if host.isSome then .error .duplicateHost
      else
        match validateHttp1Authority (trim header.value) with
        | .error _ => .error .invalidHost
        | .ok () => optionalHostLoop (some (trim header.value)) headers
    else optionalHostLoop host headers

/-- The host, at most one. -/
def http1OptionalHost (headers : List Http1Header) : Except Http1ParseError (Option Bytes) :=
  optionalHostLoop none headers

/-- The host. -/
def http1RequiredHost (headers : List Http1Header) : Except Http1ParseError Bytes := do
  let host ← http1OptionalHost headers
  okOr host .missingHost

/-! ### Heads -/

/-- The limits of a head. -/
structure Http1HeadLimits where
  maxHeadBytes : Usize
  maxHeaderCount : Usize
  maxHeaderLineBytes : Usize
  maxStartLineBytes : Usize

def DEFAULT_HTTP1_MAX_HEAD_BYTES : ℕ := 64 * 1024
def DEFAULT_HTTP1_MAX_HEADER_COUNT : ℕ := 100
def DEFAULT_HTTP1_MAX_HEADER_LINE_BYTES : ℕ := 8 * 1024
def DEFAULT_HTTP1_MAX_START_LINE_BYTES : ℕ := 8 * 1024

/-- The default limits. -/
def Http1HeadLimits.default : Http1HeadLimits where
  maxHeadBytes := ⟨DEFAULT_HTTP1_MAX_HEAD_BYTES, by decide⟩
  maxHeaderCount := ⟨DEFAULT_HTTP1_MAX_HEADER_COUNT, by decide⟩
  maxHeaderLineBytes := ⟨DEFAULT_HTTP1_MAX_HEADER_LINE_BYTES, by decide⟩
  maxStartLineBytes := ⟨DEFAULT_HTTP1_MAX_START_LINE_BYTES, by decide⟩

/-- A head as it is parsed. -/
structure RawHttp1RequestHead where
  method : Bytes
  target : Bytes
  version : Http1Version
  headers : List Http1Header
  headLen : ℕ
  deriving DecidableEq

/-- What validation finds. -/
structure Http1RequestValidation where
  requestTarget : Http1RequestTarget
  bodyFraming : Http1BodyFraming
  connectionDirective : Http1ConnectionDirective
  effectiveAuthority : Option Bytes
  deriving DecidableEq

/-- A head that was validated. -/
structure ValidatedHttp1RequestHead where
  head : RawHttp1RequestHead
  validation : Http1RequestValidation
  deriving DecidableEq

namespace RawHttp1RequestHead

variable (head : RawHttp1RequestHead)

/-- The effective authority by the form of the target, with the host of the headers. -/
def authorityOf (host : Option Bytes) : Http1RequestTarget → Except Http1ParseError Bytes
  | .absoluteUri _ _ (some authority) _ _ | .authority authority _ => do
    validateHttp1Authority authority
    match host with
    | some host =>
      if eqIgnoreCase authority host then .ok authority else .error .conflictingAuthority
    | none => .ok authority
  | .origin .. | .asterisk => okOr host .missingHost
  | .absoluteUri _ _ none _ _ => .error .invalidAuthority

/-- The authority of the target, or else the host. -/
def effectiveAuthority : Except Http1ParseError Bytes := do
  let target ← http1RequestTarget head.method head.target
  let host ← http1OptionalHost head.headers
  authorityOf host target

/-- The head as a message. -/
def validateMessage : Except Http1ParseError Http1RequestValidation := do
  if head.version = .http11 then
    let _ ← http1RequiredHost head.headers
  let requestTarget ← http1RequestTarget head.method head.target
  let effectiveAuthority ←
    match head.effectiveAuthority with
    | .ok authority => .ok (some authority)
    | .error .missingHost => if head.version = .http10 then .ok none else .error .missingHost
    | .error e => .error e
  let bodyFraming ← http1RequestBodyFraming head.version head.headers
  let connectionDirective ← http1ConnectionDirective head.version head.headers
  .ok ⟨requestTarget, bodyFraming, connectionDirective, effectiveAuthority⟩

end RawHttp1RequestHead

/-- The end of a head: two line ends. -/
def headEnd : Bytes := [13, 10, 13, 10]

/-- The length of the head, if its end is there. -/
def completeHeadLen (input : Bytes) (maxHeadBytes : ℕ) : Except Http1ParseError (Option ℕ) :=
  let searchLen := min input.length (saturatingAdd maxHeadBytes 4)
  match findSub headEnd (input.take searchLen) with
  | some index =>
    if index + 4 > maxHeadBytes then .error .headTooLarge else .ok (some (index + 4))
  | none => if input.length > maxHeadBytes then .error .headTooLarge else .ok none

/-- The version at the end of a request line. -/
def parseVersion (version : Bytes) : Except Http1ParseError Http1Version :=
  if version = ascii "HTTP/1.0" then .ok .http10
  else if version = ascii "HTTP/1.1" then .ok .http11
  else .error .unsupportedVersion

/-- Three words. -/
def parseRequestLine (line : Bytes) : Except Http1ParseError (Bytes × Bytes × Http1Version) :=
  match line.splitOn 32 with
  | [method, target, version] =>
    if method = [] ∨ target = [] then .error .invalidRequestLine
    else if ¬ httpTokenValid method then .error .invalidRequestLine
    else do
      let version ← parseVersion version
      let _ ← http1RequestTarget method target
      .ok (method, target, version)
  | _ => .error .invalidRequestLine

/-- A name, a colon and a value. -/
def parseHeaderLine (line : Bytes) : Except Http1ParseError Http1Header :=
  match splitOnce 58 line with
  | none => .error .invalidHeaderName
  | some (name, value) => Http1Header.new name value

/-- The loop of `parse_http1_request_head_raw` over the lines after the first. -/
def parseHeaderLines (limits : Http1HeadLimits) : List Http1Header → List Bytes →
    Except Http1ParseError (List Http1Header)
  | headers, [] => .ok headers
  | headers, line :: lines =>
    if line = [] then .ok headers
    else if line.length > limits.maxHeaderLineBytes then .error .headerLineTooLong
    else if line.head? = some 32 ∨ line.head? = some 9 then .error .obsoleteLineFolding
    else if headers.length ≥ limits.maxHeaderCount then .error .headerCountExceeded
    else do
      let header ← parseHeaderLine line
      parseHeaderLines limits (headers ++ [header]) lines

/-- The lines of a complete head. -/
def parseHeadLines (limits : Http1HeadLimits) (headLen : ℕ) (lines : List Bytes) :
    Except Http1ParseError RawHttp1RequestHead :=
  match lines with
  | [] => .error .invalidRequestLine
  | startLine :: lines =>
    if startLine.length > limits.maxStartLineBytes then .error .startLineTooLong
    else do
      let (method, target, version) ← parseRequestLine startLine
      let headers ← parseHeaderLines limits [] lines
      .ok ⟨method, target, version, headers, headLen⟩

/-- The head at the front of the input, if it is complete. -/
def parseHttp1RequestHeadRaw (input : Bytes) (limits : Http1HeadLimits) :
    Except Http1ParseError (Option RawHttp1RequestHead) := do
  match ← completeHeadLen input limits.maxHeadBytes with
  | none => .ok none
  | some headLen =>
    let head := input.take headLen
    if ¬ utf8Valid head then .error .invalidUtf8
    else do
      let head ← parseHeadLines limits headLen (splitPair 13 10 head)
      .ok (some head)

/-- The same, validated. -/
def parseHttp1RequestHead (input : Bytes) (limits : Http1HeadLimits) :
    Except Http1ParseError (Option ValidatedHttp1RequestHead) := do
  match ← parseHttp1RequestHeadRaw input limits with
  | none => .ok none
  | some head => do
    let validation ← head.validateMessage
    .ok (some ⟨head, validation⟩)

end Fluxheim
