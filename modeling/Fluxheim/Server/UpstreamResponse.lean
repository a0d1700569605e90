import Fluxheim.Http1.ResponseHead
import Fluxheim.Server.Connection

/-!
# Reading the response of an upstream

The model of `native_http1_upstream_response.rs`, and of the writing of a response in
`native_http1/response.rs`.  An upstream is a stream of segments, after which it ends or a read
fails; a read that times out fails.  The loops are bounded by the number of bytes still to come, of
which every turn reads at least one.
-/

namespace Fluxheim

open Ascii Fallible Search

/-- An I/O error, by its text, or a parse error. -/
inductive NativeHttp1Error
  | io (message : String)
  | parse (error : Http1ParseError)
  deriving DecidableEq

/-- The conversion of a parse error by `?`. -/
def liftParse {α : Type} : Except Http1ParseError α → Except NativeHttp1Error α
  | .ok a => .ok a
  | .error e => .error (.parse e)

/-- How the body of a response ends. -/
inductive ResponseBodyFraming
  | noBody
  | contentLength (length : ℕ)
  | chunked
  | closeDelimited
  deriving DecidableEq

/-- The responses that have no body, whatever their fields say. -/
def bodiless (status : ℕ) (requestMethod : Bytes) : Bool :=
  eqIgnoreCase requestMethod (ascii "HEAD") || (100 ≤ status && status < 200) ||
    (status = 204 || status = 304)

/-- The codings of one `Transfer-Encoding` field, of which there may be one in all. -/
def responseCodings : Option Bytes → List Bytes → Except Http1ParseError (Option Bytes)
  | transferCoding, [] => .ok transferCoding
  | transferCoding, coding :: codings =>
    if trim coding = [] ∨ ¬ httpTokenValid (trim coding) ∨ transferCoding.isSome then
      .error .unsupportedTransferEncoding
    else responseCodings (some (trim coding)) codings

/-- The loop of `response_body_framing` over the headers. -/
def responseFramingLoop : Option ℕ → Option Bytes → List Http1Header →
    Except Http1ParseError (Option ℕ × Option Bytes)
  | contentLength, transferCoding, [] => .ok (contentLength, transferCoding)
  | contentLength, transferCoding, header :: headers =>
    if header.named "content-length" then do
      let parsed ← okOr (parseUnsigned u64Max (trim header.value)) .invalidContentLength
      if contentLength.isSome then .error .duplicateContentLength
      else responseFramingLoop (some parsed) transferCoding headers
    else if header.named "transfer-encoding" then do
      let transferCoding ← responseCodings transferCoding (header.value.splitOn 44)
      responseFramingLoop contentLength transferCoding headers
    else responseFramingLoop contentLength transferCoding headers

/-- Where the body of a response ends. -/
def responseBodyFraming (status : ℕ) (requestMethod : Bytes) (headers : List Http1Header) :
    Except Http1ParseError ResponseBodyFraming :=
  if bodiless status requestMethod then .ok .noBody
  else do
    let (contentLength, transferCoding) ← responseFramingLoop none none headers
    if transferCoding.any fun coding => eqIgnoreCase coding (ascii "chunked") then .ok .chunked
    else if transferCoding.isSome then .error .unsupportedTransferEncoding
    else
      match contentLength with
      | some length =>
        if length ≤ usizeMax then .ok (.contentLength length) else .error .bodyTooLarge
      | none => .ok .closeDelimited

def UPSTREAM_READ_CHUNK_BYTES : ℕ := 8192
def MAX_INFORMATIONAL_RESPONSES : ℕ := 8

/-- The segments that arrive, and the error that follows them, if the stream does not end. -/
structure UpstreamStream where
  segments : List Bytes
  failure : Option NativeHttp1Error
  deriving DecidableEq

variable (stream : UpstreamStream)

/-- The bytes still to come. -/
def UpstreamStream.remaining : Bytes := stream.segments.flatten

/-- One read: nothing at the end of the stream. -/
def UpstreamStream.read : Except NativeHttp1Error (Bytes × UpstreamStream) :=
  let (chunk, segments) := readSocket UPSTREAM_READ_CHUNK_BYTES stream.segments
  if chunk = [] then
    match stream.failure with
    | some e => .error e
    | none => .ok ([], { stream with segments := segments })
  else .ok (chunk, { stream with segments := segments })

/-- `fill_upstream_response_head`, at most `fuel` turns. -/
def fillUpstreamResponseHead (limits : Http1HeadLimits) : ℕ → Bytes → UpstreamStream →
    Except NativeHttp1Error (Bytes × UpstreamStream)
  | 0, _, _ => .error (.parse .invalidResponseLine)
  | fuel + 1, buffer, stream =>
    match parseHttp1ResponseHead buffer limits with
    | .ok (some _) => .ok (buffer, stream)
    | .error e => .error (.parse e)
    | .ok none =>
      if buffer.length ≥ limits.maxHeadBytes then .error (.parse .headTooLarge)
      else do
        let (chunk, stream) ← stream.read
        if chunk = [] then
          if buffer = [] then .error (.io "upstream closed before response")
          else .error (.parse .invalidResponseLine)
        else fillUpstreamResponseHead limits fuel (buffer ++ chunk) stream

variable (buffer : Bytes)

/-- A head that is in the buffer. -/
def parsedUpstreamResponseHead (limits : Http1HeadLimits) :
    Except NativeHttp1Error Http1ResponseHead := do
  let head ← liftParse (parseHttp1ResponseHead buffer limits)
  okOr head (.parse .invalidResponseLine)

/-- The loop over informational responses, of which `left` more may come: the buffer from the final
head on. -/
def readFinalHead (limits : Http1HeadLimits) : ℕ → Bytes → UpstreamStream →
    Except NativeHttp1Error (Bytes × UpstreamStream)
  | left, buffer, stream => do
    let (buffer, stream) ←
      fillUpstreamResponseHead limits (stream.remaining.length + 1) buffer stream
    let head ← parsedUpstreamResponseHead buffer limits
    if head.status = 101 then .error (.parse .invalidResponseLine)
    else if head.status ≥ 200 then .ok (buffer, stream)
    else
      match left with
      | 0 => .error (.parse .invalidResponseLine)
      | left + 1 => readFinalHead limits left (buffer.drop head.headLen) stream

/-! ### Bodies -/

/-- The loop of `read_close_delimited_body`, at most `fuel` turns. -/
def readCloseDelimitedLoop (maxBodyBytes : Usize) : ℕ → Bytes → UpstreamStream →
    Except NativeHttp1Error (Bytes × UpstreamStream)
  | 0, _, _ => .error (.parse .bodyTooLarge)
  | fuel + 1, body, stream => do
    let (chunk, stream) ← stream.read
    if chunk = [] then .ok (body, stream)
    else if (body ++ chunk).length > maxBodyBytes then .error (.parse .bodyTooLarge)
    else readCloseDelimitedLoop maxBodyBytes fuel (body ++ chunk) stream

variable (headLen : ℕ)

/-- A body up to the end of the stream. -/
def readCloseDelimitedBody
    (maxBodyBytes : Usize) : Except NativeHttp1Error (Bytes × UpstreamStream) :=
  let body := buffer.drop headLen
  if body.length > maxBodyBytes then .error (.parse .bodyTooLarge)
  else readCloseDelimitedLoop maxBodyBytes (stream.remaining.length + 1) body stream

/-- The loop of `read_content_length_body`, at most `fuel` turns: the buffer with the whole body. -/
def fillUpstreamBody (required : ℕ) : ℕ → Bytes → UpstreamStream →
    Except NativeHttp1Error (Bytes × UpstreamStream)
  | 0, _, _ => .error (.parse .invalidContentLength)
  | fuel + 1, buffer, stream =>
    if buffer.length < required then do
      let (chunk, stream) ← stream.read
      if chunk = [] then .error (.parse .invalidContentLength)
      else fillUpstreamBody required fuel (buffer ++ chunk) stream
    else .ok (buffer, stream)

/-- The body, the buffer and the stream. -/
def readContentLengthBody (headLen length : ℕ)
    (maxBodyBytes : Usize) : Except NativeHttp1Error (Bytes × Bytes × UpstreamStream) :=
  if length > maxBodyBytes then .error (.parse .bodyTooLarge)
  else do
    let required ← okOr (checkedAdd headLen length) (.parse .bodyTooLarge)
    let (buffer, stream) ← fillUpstreamBody required (stream.remaining.length + 1) buffer stream
    .ok ((buffer.take required).drop headLen, buffer, stream)

/-- The loop of `read_chunked_body`, at most `fuel` turns. -/
def readUpstreamChunkedLoop : ℕ → Http1ChunkedDecoder → Bytes → UpstreamStream →
    Except NativeHttp1Error (Bytes × UpstreamStream)
  | 0, _, _, _ => .error (.parse .invalidChunk)
  | fuel + 1, decoder, body, stream => do
    let (chunk, stream) ← stream.read
    if chunk = [] then .error (.parse .invalidChunk)
    else do
      let (decoded, decoder, body) ← liftParse (decoder.push chunk body)
      match decoded with
      | some _ => .ok (body, stream)
      | none => readUpstreamChunkedLoop fuel decoder body stream

/-- `read_chunked_body`. -/
def readUpstreamChunkedBody
    (maxBodyBytes : Usize) : Except NativeHttp1Error (Bytes × UpstreamStream) := do
  let limits := Http1ChunkLimits.default.withMaxBodyBytes maxBodyBytes
  let (decoded, decoder, body) ←
    liftParse ((Http1ChunkedDecoder.new limits).push (buffer.drop headLen) [])
  match decoded with
  | some _ => .ok (body, stream)
  | none => readUpstreamChunkedLoop (stream.remaining.length + 1) decoder body stream

/-- The body, the buffer and the stream.  Only a body of known length is read
into the buffer. -/
def readResponseBody (framing : ResponseBodyFraming) (maxBodyBytes : Usize) :
    Except NativeHttp1Error (Bytes × Bytes × UpstreamStream) :=
  match framing with
  | .noBody => .ok ([], buffer, stream)
  | .closeDelimited => do
    let (body, stream) ← readCloseDelimitedBody stream buffer headLen maxBodyBytes
    .ok (body, buffer, stream)
  | .contentLength length => readContentLengthBody stream buffer headLen length maxBodyBytes
  | .chunked => do
    let (body, stream) ← readUpstreamChunkedBody stream buffer headLen maxBodyBytes
    .ok (body, buffer, stream)

/-- `NativeHttp1Response`, as far as it is made here and written. -/
structure NativeHttp1Response where
  status : ℕ
  reason : Bytes
  headers : List (Bytes × Bytes)
  contentLength : Option ℕ
  body : Bytes
  deriving DecidableEq

/-- The header is passed on. -/
def responseHeaderAllowed (name : Bytes) (framing : ResponseBodyFraming) (options : List Bytes) :
    Bool :=
  !(identifiesHopByHopHeader options name ||
    (framing = .chunked && eqIgnoreCase name (ascii "content-length")))

/-- The length in the headers that are passed on. -/
def responseContentLength (headers : List (Bytes × Bytes)) : Option ℕ :=
  (headers.find? fun field => eqIgnoreCase field.1 (ascii "content-length")).bind
    fun field => parseUnsigned u64Max (trim field.2)

/-- The buffer ends with the body. -/
def responseBodyReusable (framing : ResponseBodyFraming) (bodyLen status : ℕ) : Bool :=
  if 100 ≤ status ∧ status < 200 then false
  else
    match framing with
    | .noBody => buffer.length = headLen
    | .contentLength length =>
      length = bodyLen && buffer.length = saturatingAdd headLen length
    | .chunked | .closeDelimited => false

/-- The limits on the head of a response. -/
def upstreamHeadLimits (maxHeadBytes : Usize) : Http1HeadLimits :=
  { Http1HeadLimits.default with maxHeadBytes := maxHeadBytes }

/-- The response, whether the connection can be used again, and the
stream. -/
def readUpstreamResponseInner (maxHeadBytes maxBodyBytes : Usize)
    (requestMethod : Bytes) (wantReusable : Bool) :
    Except NativeHttp1Error (NativeHttp1Response × Bool × UpstreamStream) := do
  let limits := upstreamHeadLimits maxHeadBytes
  let (buffer, stream) ← readFinalHead limits MAX_INFORMATIONAL_RESPONSES [] stream
  let head ← parsedUpstreamResponseHead buffer limits
  let framing ← liftParse (responseBodyFraming head.status requestMethod head.headers)
  let options ← liftParse (http1ConnectionOptions head.headers)
  let directive ← liftParse (http1ConnectionDirective head.version head.headers)
  let headers := (head.headers.filter fun header =>
    responseHeaderAllowed header.name framing options).map fun header => (header.name, header.value)
  let (body, buffer, stream) ← readResponseBody stream buffer head.headLen framing maxBodyBytes
  let reusable := wantReusable && directive ≠ .close &&
    responseBodyReusable buffer head.headLen framing body.length head.status
  .ok (⟨head.status, head.reason, headers, responseContentLength headers, body⟩, reusable, stream)

/-- The idle connections of an upstream, the last one on top. -/
structure NativeHttp1ConnectionPool where
  idle : List UpstreamStream
  maxIdle : ℕ
  deriving DecidableEq

variable (pool : NativeHttp1ConnectionPool)

/-- The connection is given back, if there is room. -/
def NativeHttp1ConnectionPool.returnConnection
    (stream : UpstreamStream) : NativeHttp1ConnectionPool :=
  if pool.idle.length < pool.maxIdle then { pool with idle := stream :: pool.idle } else pool

/-- The end of `send` on a pooled connection: the response, and the pool. -/
def sendPooled (stream : UpstreamStream)
    (maxHeadBytes maxBodyBytes : Usize) (requestMethod : Bytes) :
    Except NativeHttp1Error (NativeHttp1Response × NativeHttp1ConnectionPool) := do
  let (response, reusable, stream) ←
    readUpstreamResponseInner stream maxHeadBytes maxBodyBytes requestMethod true
  .ok (response, if reusable then pool.returnConnection stream else pool)

/-- Printable characters and tabs. -/
def sanitizeReasonPhrase (reason : Bytes) : Bytes :=
  reason.filter fun b => b = 0x09 || 0x20 ≤ b && b ≤ 0x7e

/-- A header that can be written. -/
def validResponseHeader (name value : Bytes) : Bool :=
  httpTokenValid name && !value.any headerValueForbidden

/-- The headers that are written once, before all others. -/
def responseOwnedHeader (name : Bytes) : Bool :=
  eqIgnoreCase name (ascii "content-length") || eqIgnoreCase name (ascii "connection") ||
    eqIgnoreCase name (ascii "date")

/-- One line of a head. -/
def responseLine (name value : Bytes) : Bytes := name ++ ascii ": " ++ value ++ crlf

/-- The loop of `write_response_inner` over the headers. -/
def writeResponseHeaders : List (Bytes × Bytes) → Except NativeHttp1Error Bytes
  | [] => .ok []
  | (name, value) :: headers =>
    if responseOwnedHeader name then writeResponseHeaders headers
    else if ¬ validResponseHeader name value then .error (.parse .invalidHeaderValue)
    else do
      let rest ← writeResponseHeaders headers
      .ok (responseLine name value ++ rest)

/-- `write_response_inner`, at the date given. -/
def writeResponse (response : NativeHttp1Response) (close : Bool) (date : Bytes) :
    Except NativeHttp1Error Bytes := do
  let statusLine := ascii "HTTP/1.1 " ++ decimal response.status ++ ascii " " ++
    sanitizeReasonPhrase response.reason ++ crlf
  let dateLine := responseLine (ascii "Date") date
  let lengthLine := responseLine (ascii "Content-Length")
    (decimal (response.contentLength.getD response.body.length))
  let connectionLine := responseLine (ascii "Connection")
    (if close then ascii "close" else ascii "keep-alive")
  let headerLines ← writeResponseHeaders response.headers
  .ok (statusLine ++ dateLine ++ lengthLine ++ connectionLine ++ headerLines ++ crlf ++
    response.body)

end Fluxheim
