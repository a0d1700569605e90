import Fluxheim.Http1.Chunked
import Fluxheim.Http1.Head

/-!
# Serving a connection

The model of `native_http1.rs` and `native_http1/body.rs`: the loop that reads a head, reads the
body the head announces, gives the request to the handler, and goes on with what is left in the
buffer.

The socket is the list of the segments that arrive.  Fixed from outside are the decisions that do
not depend on the bytes: no timeout expires, the body budget admits or refuses a request by its
declared length and grants an admitted body what it reserves later, and the handler decides on what
it was given so far.  The context of the connection (addresses, TLS identity) is left out, and the
status of a response stands for the response.
-/

namespace Fluxheim

open Ascii Fallible Search

/-- The most that one read returns. -/
def READ_CHUNK_BYTES : ℕ := 8192

/-- Read at most `n` bytes: what was read, and the segments still to come. -/
def readSocket (n : ℕ) : List Bytes → Bytes × List Bytes
  | [] => ([], [])
  | [] :: socket => readSocket n socket
  | (b :: segment) :: socket => ((b :: segment).take n, (b :: segment).drop n :: socket)

/-- `DownstreamHttp1Policy`, as far as it limits requests. -/
structure DownstreamHttp1Policy where
  maxBodyBytes : Usize
  maxHeadBytes : Usize
  maxHeaderCount : Usize
  maxHeaderLineBytes : Usize
  maxStartLineBytes : Usize

/-- The limits of `DownstreamHttp1Policy::default`. -/
def DownstreamHttp1Policy.default : DownstreamHttp1Policy where
  maxBodyBytes := Http1ChunkLimits.default.maxBodyBytes
  maxHeadBytes := Http1HeadLimits.default.maxHeadBytes
  maxHeaderCount := Http1HeadLimits.default.maxHeaderCount
  maxHeaderLineBytes := Http1HeadLimits.default.maxHeaderLineBytes
  maxStartLineBytes := Http1HeadLimits.default.maxStartLineBytes

/-- `Http1HeadLimits::from`. -/
def DownstreamHttp1Policy.headLimits (policy : DownstreamHttp1Policy) : Http1HeadLimits where
  maxHeadBytes := policy.maxHeadBytes
  maxHeaderCount := policy.maxHeaderCount
  maxHeaderLineBytes := policy.maxHeaderLineBytes
  maxStartLineBytes := policy.maxStartLineBytes

/-- The request that a handler is given. -/
structure NativeHttp1Request where
  method : Bytes
  target : Bytes
  version : Http1Version
  headers : List (Bytes × Bytes)
  body : Bytes

/-- The host is that of the effective authority. -/
def ownedHeaders (headers : List Http1Header) (effectiveAuthority : Option Bytes) :
    List (Bytes × Bytes) :=
  (headers.filter fun header => ¬ header.named "host").map
    (fun header => (header.name, header.value))
    ++ (effectiveAuthority.map fun authority => (ascii "host", authority)).toList

/-- The request of a head, before its body is read. -/
def ownedRequestFromHead (head : ValidatedHttp1RequestHead) : NativeHttp1Request where
  method := head.head.method
  target := head.head.target
  version := head.head.version
  headers := ownedHeaders head.head.headers head.validation.effectiveAuthority
  body := []

/-- The decisions that are fixed from outside, by the requests delivered before. -/
structure NativeHttp1Handler where
  admits : List NativeHttp1Request → NativeHttp1Request → ℕ → Bool
  handlesConnectionTakeover : List NativeHttp1Request → NativeHttp1Request → Bool
  closeRequested : List NativeHttp1Request → NativeHttp1Request → Bool

/-! ### The body -/

/-- `isize::MAX`, beyond which no vector is allocated. -/
def isizeMax : ℕ := 2 ^ 63 - 1

/-- Its bytes and the capacity of the vector that holds them. -/
structure NativeHttp1RequestBody where
  bytes : Bytes
  capacity : ℕ

namespace NativeHttp1RequestBody

/-- No bytes and no capacity. -/
def empty : NativeHttp1RequestBody := ⟨[], 0⟩

/-- `NativeHttp1RequestBody::from_vec`.  The vector may have more room than it needs; that is read
only where room for more than `isize::MAX` bytes is then refused with the same error. -/
def fromVec (body : Bytes) : NativeHttp1RequestBody := ⟨body, body.length⟩

variable (body : NativeHttp1RequestBody)

/-- `NativeHttp1RequestBody::reserve_capacity`, with memory for every vector there can be. -/
def reserveCapacity (required : ℕ) : Except Http1ParseError NativeHttp1RequestBody :=
  if required ≤ body.capacity then .ok body
  else if required > isizeMax then .error .bodyTooLarge
  else .ok { body with capacity := required }

/-- A larger buffer. -/
def replaceCapacity (required : ℕ) : Except Http1ParseError NativeHttp1RequestBody :=
  if required > isizeMax then .error .bodyTooLarge
  else .ok { body with capacity := max required body.bytes.length }

/-- The bytes are added. -/
def extendFromSlice (bytes : Bytes) : Except Http1ParseError NativeHttp1RequestBody := do
  let required ← okOr (checkedAdd body.bytes.length bytes.length) .bodyTooLarge
  let body ← body.reserveCapacity required
  .ok { body with bytes := body.bytes ++ bytes }

end NativeHttp1RequestBody

instance : Http1ChunkSink NativeHttp1RequestBody where
  len body := body.bytes.length
  append := NativeHttp1RequestBody.extendFromSlice

/-- The loop that reads the rest of a body of known length, at most `fuel` turns. -/
def readLengthLoop (length : ℕ) : ℕ → NativeHttp1RequestBody → List Bytes →
    Except Http1ParseError (NativeHttp1RequestBody × List Bytes)
  | 0, _, _ => .error .invalidContentLength
  | fuel + 1, body, socket =>
    if body.bytes.length < length then do
      let remaining := length - body.bytes.length
      let (chunk, socket) := readSocket (min remaining READ_CHUNK_BYTES) socket
      if chunk = [] then .error .invalidContentLength
      else do
        let body ← body.extendFromSlice chunk
        readLengthLoop length fuel body socket
    else .ok (body, socket)

/-- Room for what may be decoded, doubled but within the limit. -/
def reserveChunkedBodyGrowth (body : NativeHttp1RequestBody) (possibleGrowth : ℕ)
    (maxBodyBytes : Usize) : Except Http1ParseError NativeHttp1RequestBody := do
  let required ← okOr (checkedAdd body.bytes.length possibleGrowth) .bodyTooLarge
  let required := min required maxBodyBytes
  if required ≤ body.capacity then .ok body
  else do
    let geometric := min (max body.capacity READ_CHUNK_BYTES * 2) usizeMax
    let admittedCapacity := min (max required geometric) maxBodyBytes
    let _ ← okOr (checkedAdd admittedCapacity body.capacity) .bodyTooLarge
    body.reserveCapacity admittedCapacity

/-- The loop of `read_chunked_body`, at most `fuel` turns: the body, what of the last read
follows it, and the socket. -/
def readChunkedLoop (maxBodyBytes : Usize) :
    ℕ → Http1ChunkedDecoder → NativeHttp1RequestBody → ℕ → List Bytes →
    Except Http1ParseError (NativeHttp1RequestBody × Bytes × List Bytes)
  | 0, _, _, _, _ => .error .invalidChunk
  | fuel + 1, decoder, body, fedLen, socket =>
    let (chunk, socket) := readSocket READ_CHUNK_BYTES socket
    if chunk = [] then .error .invalidChunk
    else do
      let prospectiveEncoded ← okOr (checkedAdd fedLen chunk.length) .encodedBodyTooLarge
      let body ← reserveChunkedBodyGrowth body chunk.length maxBodyBytes
      let (decoded, decoder, body) ← decoder.pushTo chunk body
      match decoded with
      | some decoded =>
        if decoded.consumedLen < fedLen ∨ chunk.length < decoded.consumedLen - fedLen then
          .error .invalidChunk
        else .ok (body, chunk.drop (decoded.consumedLen - fedLen), socket)
      | none => readChunkedLoop maxBodyBytes fuel decoder body prospectiveEncoded socket

/-- The body of a chunked request, and what is left in the buffer. -/
def readChunkedBody (socket : List Bytes) (buffer : Bytes) (headLen : ℕ) (maxBodyBytes : Usize) :
    Except Http1ParseError (NativeHttp1RequestBody × Bytes × List Bytes) := do
  let initial := buffer.drop headLen
  let limits := Http1ChunkLimits.default.withMaxBodyBytes maxBodyBytes
  let body ← reserveChunkedBodyGrowth .empty initial.length maxBodyBytes
  let (decoded, decoder, body) ← (Http1ChunkedDecoder.new limits).pushTo initial body
  match decoded with
  | some decoded => .ok (body, initial.drop decoded.consumedLen, socket)
  | none =>
    readChunkedLoop maxBodyBytes (socket.flatten.length + 1) decoder body initial.length socket

/-- The body, the buffer and the socket after it. -/
def readBodyInner (socket : List Bytes) (buffer : Bytes) (headLen : ℕ)
    (framing : Http1BodyFraming) (maxBodyBytes : Usize) :
    Except Http1ParseError (NativeHttp1RequestBody × Bytes × List Bytes) :=
  match framing with
  | .noBody => .ok (.empty, buffer.drop headLen, socket)
  | .contentLength length =>
    if length > usizeMax then .error .bodyTooLarge
    else if length > maxBodyBytes then .error .bodyTooLarge
    else do
      let available := min (buffer.length - headLen) length
      -- at most the length of the buffer, so that the checked sum of the source does not fail
      let bodyEnd := headLen + available
      let initial := (buffer.take bodyEnd).drop headLen
      let buffer := buffer.drop bodyEnd
      let body := NativeHttp1RequestBody.fromVec initial
      let _ ← okOr (checkedAdd length body.capacity) .bodyTooLarge
      let body ← body.replaceCapacity length
      let (body, socket) ← readLengthLoop length (socket.flatten.length + 1) body socket
      .ok (body, buffer, socket)
  | .chunked => readChunkedBody socket buffer headLen maxBodyBytes

/-- `read_until_head`, at most `fuel` turns: the length of the head, the buffer and the socket. -/
def readUntilHead (limits : Http1HeadLimits) : ℕ → Bytes → List Bytes →
    Except Http1ParseError (Option ℕ × Bytes × List Bytes)
  | 0, buffer, socket => .ok (none, buffer, socket)
  | fuel + 1, buffer, socket =>
    match parseHttp1RequestHead buffer limits with
    | .ok (some head) => .ok (some head.head.headLen, buffer, socket)
    | .error e => .error e
    | .ok none =>
      if buffer.length ≥ limits.maxHeadBytes then .error .headTooLarge
      else
        let (chunk, socket) := readSocket READ_CHUNK_BYTES socket
        if chunk = [] then .ok (none, buffer, socket)
        else readUntilHead limits fuel (buffer ++ chunk) socket

/-- How a connection ends. -/
inductive ConnectionEnd
  /-- The stream ended before a head was complete. -/
  | closed
  /-- `write_request_head_error`. -/
  | headRejected (status : ℕ) (error : Http1ParseError)
  /-- An error of a head that was complete before. -/
  | headFailed (error : Http1ParseError)
  /-- The response 413. -/
  | payloadTooLarge
  /-- The response 503. -/
  | capacityUnavailable
  /-- The response 400 to a body. -/
  | bodyRejected (error : Http1ParseError)
  /-- The handler took over, with what is in the buffer and on the stream. -/
  | takenOver
  /-- The connection was closed after a response. -/
  | closedAfterResponse
  /-- The turns of the loop did not suffice; see `serveSpec_ne_unfinished`. -/
  | unfinished

/-- The status of `write_request_head_error`. -/
def requestHeadErrorStatus : Http1ParseError → ℕ
  | .headerCountExceeded | .headerLineTooLong | .headTooLarge => 431
  | .startLineTooLong => 414
  | _ => 400

/-- A request given to the handler, and what was retained and unread after its message. -/
structure Delivery where
  request : NativeHttp1Request
  buffer : Bytes
  socket : List Bytes

/-- The bytes that come after the message: those retained, then those unread. -/
def Delivery.rest (d : Delivery) : Bytes := d.buffer ++ d.socket.flatten

/-- The bytes to reserve for a body, if that is a `usize`. -/
def reservationBytes : Http1BodyFraming → Option ℕ
  | .noBody => some 0
  | .contentLength length => if length > usizeMax then none else some length
  | .chunked => some 0

/-- The loop of `serve_native_http1_connection_with_context`, at most `fuel` turns, after the
requests in `history`. -/
def serveLoop (policy : DownstreamHttp1Policy) (handler : NativeHttp1Handler) :
    ℕ → List NativeHttp1Request → Bytes → List Bytes → List Delivery × ConnectionEnd
  | 0, _, _, _ => ([], .unfinished)
  | fuel + 1, history, buffer, socket =>
    match readUntilHead policy.headLimits (socket.flatten.length + 1) buffer socket with
    | .error e => ([], .headRejected (requestHeadErrorStatus e) e)
    | .ok (none, _, _) => ([], .closed)
    | .ok (some headLen, buffer, socket) =>
      match parseHttp1RequestHead buffer policy.headLimits with
      | .error e => ([], .headFailed e)
      | .ok none => ([], .closed)
      | .ok (some head) =>
        let framing := head.validation.bodyFraming
        let request := ownedRequestFromHead head
        match reservationBytes framing with
        | none => ([], .payloadTooLarge)
        | some reservation =>
          if ¬ handler.admits history request reservation then ([], .capacityUnavailable)
          else
            match readBodyInner socket buffer headLen framing policy.maxBodyBytes with
            | .error e => ([], if e = .bodyTooLarge then .payloadTooLarge else .bodyRejected e)
            | .ok (body, buffer, socket) =>
              let request := { request with body := body.bytes }
              let delivery := ⟨request, buffer, socket⟩
              if handler.handlesConnectionTakeover history request then ([delivery], .takenOver)
              else if head.validation.connectionDirective = .close ∨
                  handler.closeRequested history request then
                ([delivery], .closedAfterResponse)
              else
                let (deliveries, connectionEnd) :=
                  serveLoop policy handler fuel (history ++ [request]) buffer socket
                (delivery :: deliveries, connectionEnd)

/-- What was delivered, and how the connection ended. -/
def serveNativeHttp1Connection (policy : DownstreamHttp1Policy) (handler : NativeHttp1Handler)
    (socket : List Bytes) : List Delivery × ConnectionEnd :=
  serveLoop policy handler (socket.flatten.length + 1) [] [] socket

end Fluxheim
