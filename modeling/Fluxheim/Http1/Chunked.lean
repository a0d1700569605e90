import Fluxheim.Lib.Fallible
import Fluxheim.Lib.Search
import Fluxheim.Http1.Token

/-!
# The chunked decoder

The model of `http1_chunked.rs`.  `process` is the decoding loop.  One turn of it is `processStep`,
with one function for each arm of its `match`; the loop is bounded by the length of the buffer,
since every turn that does not return reads at least two bytes.  Decoded data goes to a sink.
Allocation is taken to succeed.  After an error the decoder is not used again, so an error carries
no state.
-/

namespace Fluxheim

open Ascii Fallible Search

/-- The limits of a decoder. -/
structure Http1ChunkLimits where
  maxChunkSize : Usize
  maxBodyBytes : Usize
  maxEncodedBytes : Usize
  maxChunkLineBytes : Usize
  maxChunkCount : Usize
  maxChunkExtensionBytes : Usize

def DEFAULT_HTTP1_MAX_BODY_BYTES : ℕ := 64 * 1024 * 1024
def DEFAULT_HTTP1_MAX_CHUNK_SIZE : ℕ := 1024 * 1024
def DEFAULT_HTTP1_MAX_ENCODED_BYTES : ℕ := 72 * 1024 * 1024
def DEFAULT_HTTP1_MAX_CHUNK_LINE_BYTES : ℕ := 8 * 1024
def DEFAULT_HTTP1_MAX_CHUNK_COUNT : ℕ := 1024 * 1024
def DEFAULT_HTTP1_MAX_CHUNK_EXTENSION_BYTES : ℕ := 64 * 1024
/-- A push is taken in fragments of this size. -/
def HTTP1_CHUNK_INPUT_FRAGMENT_BYTES : ℕ := 8 * 1024
/-- Less than this is not worth dropping. -/
def HTTP1_CHUNK_COMPACT_THRESHOLD_BYTES : ℕ := 4 * 1024

/-- The default limits. -/
def Http1ChunkLimits.default : Http1ChunkLimits where
  maxChunkSize := ⟨DEFAULT_HTTP1_MAX_CHUNK_SIZE, by decide⟩
  maxBodyBytes := ⟨DEFAULT_HTTP1_MAX_BODY_BYTES, by decide⟩
  maxEncodedBytes := ⟨DEFAULT_HTTP1_MAX_ENCODED_BYTES, by decide⟩
  maxChunkLineBytes := ⟨DEFAULT_HTTP1_MAX_CHUNK_LINE_BYTES, by decide⟩
  maxChunkCount := ⟨DEFAULT_HTTP1_MAX_CHUNK_COUNT, by decide⟩
  maxChunkExtensionBytes := ⟨DEFAULT_HTTP1_MAX_CHUNK_EXTENSION_BYTES, by decide⟩

/-- The encoded limit leaves the default allowance for
metadata. -/
def Http1ChunkLimits.withMaxBodyBytes (limits : Http1ChunkLimits) (maxBodyBytes : Usize) :
    Http1ChunkLimits :=
  let metadataAllowance := DEFAULT_HTTP1_MAX_ENCODED_BYTES - DEFAULT_HTTP1_MAX_BODY_BYTES
  { limits with
    maxBodyBytes := maxBodyBytes
    maxEncodedBytes := ⟨saturatingAdd maxBodyBytes metadataAllowance, by
      unfold saturatingAdd usizeMax
      omega⟩ }

/-- The trait `Http1ChunkSink`. -/
class Http1ChunkSink (S : Type) where
  len : S → ℕ
  append : S → Bytes → Except Http1ParseError S

/-- `Vec<u8>` as a sink. -/
instance : Http1ChunkSink Bytes where
  len := List.length
  append output bytes := .ok (output ++ bytes)

/-- A slice that is filled from the left. -/
structure Http1SliceChunkSink where
  output : Bytes
  len : ℕ

/-- The bytes are written behind the others, if they fit. -/
def Http1SliceChunkSink.append (sink : Http1SliceChunkSink) (bytes : Bytes) :
    Except Http1ParseError Http1SliceChunkSink :=
  match checkedAdd sink.len bytes.length with
  | none => .error .outputTooSmall
  | some stop =>
    if stop ≤ sink.output.length then
      .ok ⟨sink.output.take sink.len ++ bytes ++ sink.output.drop stop, stop⟩
    else .error .outputTooSmall

instance : Http1ChunkSink Http1SliceChunkSink where
  len := Http1SliceChunkSink.len
  append := Http1SliceChunkSink.append

/-- The first line end from an offset on. -/
def findCrlf (input : Bytes) (offset : ℕ) : Option ℕ :=
  (findSub crlf (input.drop offset)).map (· + offset)

/-- The digits of a chunk size, after a size already read. -/
def parseChunkSizeDigits (maxChunkSize : ℕ) : ℕ → Bytes → Except Http1ParseError ℕ
  | size, [] => .ok size
  | size, byte :: rest =>
    match hexValue byte with
    | none => .error .invalidChunkSize
    | some value =>
      match (checkedMul size 16).bind (checkedAdd · value) with
      | none => .error .chunkTooLarge
      | some size =>
        if size > maxChunkSize then .error .chunkTooLarge
        else parseChunkSizeDigits maxChunkSize size rest

/-- The bytes that a quoted string refuses, escaped or not. -/
def quotedForbidden (byte : UInt8) : Bool := byte ≤ 0x1f || 0x7f ≤ byte

/-- The position of the closing quote. -/
def findQuoteClose : Bool → Bytes → Except Http1ParseError (Option ℕ)
  | _, [] => .ok none
  | true, byte :: rest =>
    if quotedForbidden byte then .error .invalidChunk
    else (findQuoteClose false rest).map (Option.map (· + 1))
  | false, byte :: rest =>
    if byte = 92 then (findQuoteClose true rest).map (Option.map (· + 1))
    else if byte = 34 then .ok (some 0)
    else if quotedForbidden byte then .error .invalidChunk
    else (findQuoteClose false rest).map (Option.map (· + 1))

/-- The value of an extension, after its `=`: the rest of the list. -/
def validateChunkExtensionValue (extensions : Bytes) : Except Http1ParseError Bytes :=
  match extensions with
  | 34 :: quoted =>
    match findQuoteClose false quoted with
    | .error e => .error e
    | .ok none => .error .invalidChunk
    | .ok (some close) =>
      let extensions := quoted.drop (close + 1)
      if extensions ≠ [] ∧ extensions.head? ≠ some 59 then .error .invalidChunk
      else .ok extensions
  | _ =>
    let value := extensions.takeWhile (· ≠ 59)
    if ¬ utf8Valid value then .error .invalidChunk
    else if ¬ httpTokenValid value then .error .invalidChunk
    else .ok (extensions.drop value.length)

/-- What follows the name of an extension: possibly a value. -/
def validateChunkExtensionTail (extensions : Bytes) : Except Http1ParseError Bytes :=
  match extensions with
  | 61 :: extensions => validateChunkExtensionValue extensions
  | _ => .ok extensions

/-- The bytes of a name of an extension, whether they are valid or not. -/
def extensionNameByte (byte : UInt8) : Bool := byte ≠ 59 && byte ≠ 61

/-- One turn of the loop of `validate_chunk_extensions`: the rest of the list. -/
def validateChunkExtension (extensions : Bytes) : Except Http1ParseError Bytes :=
  match extensions with
  | 59 :: extensions =>
    let name := extensions.takeWhile extensionNameByte
    -- each byte is tested as a text of its own, the empty one where it is not UTF-8
    if name = [] ∨ ¬ name.all (fun byte => httpTokenValid (if utf8Valid [byte] then [byte] else []))
    then .error .invalidChunk
    else validateChunkExtensionTail (extensions.drop name.length)
  | _ => .error .invalidChunk

/-- The loop of `validate_chunk_extensions`, at most `fuel` turns. -/
def validateChunkExtensionsLoop : ℕ → Bytes → Except Http1ParseError Unit
  | _, [] => .ok ()
  | 0, _ :: _ => .error .invalidChunk
  | fuel + 1, byte :: rest => do
    let extensions ← validateChunkExtension (byte :: rest)
    validateChunkExtensionsLoop fuel extensions

/-- The extensions of a size line. -/
def validateChunkExtensions (extensions : Bytes) : Except Http1ParseError Unit :=
  validateChunkExtensionsLoop extensions.length extensions

/-- The chunk size and the number of extension bytes. -/
def parseChunkSizeLine (line : Bytes) (maxChunkSize : ℕ) : Except Http1ParseError (ℕ × ℕ) :=
  let sizeEnd := (line.takeWhile (· ≠ 59)).length
  if sizeEnd = 0 then .error .invalidChunkSize
  else do
    let size ← parseChunkSizeDigits maxChunkSize 0 (line.take sizeEnd)
    validateChunkExtensions (line.drop sizeEnd)
    .ok (size, line.length - sizeEnd)

/-! ### The decoder -/

/-- The lengths of a body, decoded and encoded. -/
structure Http1ChunkedDecode where
  decodedLen : ℕ
  consumedLen : ℕ
  deriving DecidableEq

/-- Before a size line, before the data of a chunk, or before the
empty line at the end. -/
inductive Http1ChunkedDecodeState
  | size
  | data (size : ℕ)
  | finish
  deriving DecidableEq

/-- The bytes that are read from `inputOffset` on, the search for the end of a size line resumed at
`lineScanOffset`; `compactedLen` bytes were dropped from the front. -/
structure Http1ChunkedDecoder where
  limits : Http1ChunkLimits
  input : Bytes
  inputOffset : ℕ
  lineScanOffset : ℕ
  compactedLen : ℕ
  receivedLen : ℕ
  decodedLen : ℕ
  chunkCount : ℕ
  extensionBytes : ℕ
  state : Http1ChunkedDecodeState
  complete : Option Http1ChunkedDecode

/-- `input[start..stop]`. -/
def slice (input : Bytes) (start stop : ℕ) : Bytes := (input.take stop).drop start

/-- The length of an unfinished line: a `\r` at its end may begin the line end. -/
def pendingLineLen (pending : Bytes) : ℕ :=
  pending.length - (if pending.getLast? = some 13 then 1 else 0)

/-- One turn of a loop: go round again, or return. -/
inductive Turn (D S R : Type)
  | again (d : D) (output : S)
  | ret (r : R) (d : D) (output : S)

namespace Http1ChunkedDecoder

variable {S : Type} [Http1ChunkSink S]

/-- A decoder at the start. -/
def new (limits : Http1ChunkLimits) : Http1ChunkedDecoder where
  limits := limits
  input := []
  inputOffset := 0
  lineScanOffset := 0
  compactedLen := 0
  receivedLen := 0
  decodedLen := 0
  chunkCount := 0
  extensionBytes := 0
  state := .size
  complete := none

variable (d : Http1ChunkedDecoder)

/-- Drop what was read from the front of the buffer, once it is all of it or
at least half of it and 4 KiB. -/
def compactConsumed : Except Http1ParseError Http1ChunkedDecoder :=
  if d.inputOffset = 0 then .ok d
  else if d.inputOffset ≠ d.input.length ∧
      (d.inputOffset < HTTP1_CHUNK_COMPACT_THRESHOLD_BYTES ∨ d.inputOffset < d.input.length / 2)
  then .ok d
  else do
    let compactedLen ← okOr (checkedAdd d.compactedLen d.inputOffset) .encodedBodyTooLarge
    .ok { d with
      compactedLen := compactedLen
      input := d.input.drop d.inputOffset
      inputOffset := 0
      lineScanOffset := d.lineScanOffset - d.inputOffset }

variable (output : S)

/-- The arm `Size` when the line ends at `lineEnd`. -/
def processLine (lineEnd : ℕ) :
    Except Http1ParseError (Turn Http1ChunkedDecoder S (Option Http1ChunkedDecode)) :=
  let line := slice d.input d.inputOffset lineEnd
  if line.length > d.limits.maxChunkLineBytes then .error .chunkMetadataTooLarge
  else do
    let chunkCount ← okOr (checkedAdd d.chunkCount 1) .chunkMetadataTooLarge
    if chunkCount > d.limits.maxChunkCount then .error .chunkMetadataTooLarge
    else do
      let (size, extensionBytes) ← parseChunkSizeLine line d.limits.maxChunkSize
      let extensionBytes ← okOr (checkedAdd d.extensionBytes extensionBytes) .chunkMetadataTooLarge
      if extensionBytes > d.limits.maxChunkExtensionBytes then .error .chunkMetadataTooLarge
      else do
        let inputOffset ← okOr (checkedAdd lineEnd 2) .invalidChunk
        .ok (.again { d with
          chunkCount := chunkCount
          extensionBytes := extensionBytes
          inputOffset := inputOffset
          lineScanOffset := inputOffset
          state := if size = 0 then .finish else .data size } output)

/-- The arm `Size`. -/
def processSize : Except Http1ParseError (Turn Http1ChunkedDecoder S (Option Http1ChunkedDecode)) :=
  match findCrlf d.input d.lineScanOffset with
  | none =>
    if d.input.length < d.inputOffset then .error .invalidChunk
    else if pendingLineLen (d.input.drop d.inputOffset) > d.limits.maxChunkLineBytes then
      .error .chunkMetadataTooLarge
    else
      .ok (.ret none
        { d with lineScanOffset := max (d.input.length - 1) d.inputOffset } output)
  | some lineEnd => d.processLine output lineEnd

/-- The arm `Data(size)`. -/
def processData (size : ℕ) :
    Except Http1ParseError (Turn Http1ChunkedDecoder S (Option Http1ChunkedDecode)) := do
  let dataEnd ← okOr (checkedAdd d.inputOffset size) .chunkTooLarge
  let chunkEnd ← okOr (checkedAdd dataEnd 2) .invalidChunk
  if chunkEnd > d.input.length then .ok (.ret none d output)
  else if slice d.input dataEnd chunkEnd ≠ crlf then .error .invalidChunk
  else do
    let outputEnd ← okOr (checkedAdd d.decodedLen size) .bodyTooLarge
    if outputEnd > d.limits.maxBodyBytes then .error .bodyTooLarge
    else do
      let output ← Http1ChunkSink.append output (slice d.input d.inputOffset dataEnd)
      let d ← compactConsumed { d with
        decodedLen := outputEnd
        inputOffset := chunkEnd
        lineScanOffset := chunkEnd
        state := .size }
      .ok (.again d output)

/-- The arm `End`. -/
def processEnd : Except Http1ParseError (Turn Http1ChunkedDecoder S (Option Http1ChunkedDecode)) :=
  let stop := saturatingAdd d.inputOffset 2
  if stop > d.input.length ∨ d.inputOffset > stop then .ok (.ret none d output)
  else if slice d.input d.inputOffset stop ≠ crlf then .error .invalidChunk
  else do
    let consumedLen ←
      okOr ((checkedAdd d.compactedLen d.inputOffset).bind (checkedAdd · 2)) .invalidChunk
    let complete := ⟨d.decodedLen, consumedLen⟩
    .ok (.ret (some complete) { d with complete := some complete } output)

/-- One turn of the loop of `process`. -/
def processStep : Except Http1ParseError (Turn Http1ChunkedDecoder S (Option Http1ChunkedDecode)) :=
  match d.state with
  | .size => d.processSize output
  | .data size => d.processData output size
  | .finish => d.processEnd output

/-- The loop of `process`, at most `fuel` turns. -/
def processLoop : ℕ → Http1ChunkedDecoder → S →
    Except Http1ParseError (Option Http1ChunkedDecode × Http1ChunkedDecoder × S)
  | 0, d, output => .ok (none, d, output)
  | fuel + 1, d, output => do
    match ← d.processStep output with
    | .ret r d output => .ok (r, d, output)
    | .again d output => processLoop fuel d output

/-- As much as the buffer allows. -/
def process (d : Http1ChunkedDecoder) (output : S) :
    Except Http1ParseError (Option Http1ChunkedDecode × Http1ChunkedDecoder × S) :=
  processLoop (d.input.length + 1) d output

/-- The loop of `push_with_sink` over what is left of the chunk, at most `fuel` turns. -/
def pushLoop : ℕ → Http1ChunkedDecoder → Bytes → S →
    Except Http1ParseError (Option Http1ChunkedDecode × Http1ChunkedDecoder × S)
  | 0, d, _, output => .ok (none, d, output)
  | fuel + 1, d, chunk, output =>
    if chunk = [] then .ok (none, d, output)
    else
      let remainingLimit := d.limits.maxEncodedBytes - d.receivedLen
      if remainingLimit = 0 then .error .encodedBodyTooLarge
      else do
        let fragmentLen := min (min chunk.length HTTP1_CHUNK_INPUT_FRAGMENT_BYTES) remainingLimit
        let receivedLen ← okOr (checkedAdd d.receivedLen fragmentLen) .encodedBodyTooLarge
        let (r, d, output) ← process { d with
          input := d.input ++ chunk.take fragmentLen
          receivedLen := receivedLen } output
        match r with
        | some complete => .ok (some complete, d, output)
        | none => pushLoop fuel d (chunk.drop fragmentLen) output

/-- More bytes, in fragments of at most 8 KiB. -/
def pushWithSink (chunk : Bytes) (output : S) :
    Except Http1ParseError (Option Http1ChunkedDecode × Http1ChunkedDecoder × S) :=
  match d.complete with
  | some complete => .ok (some complete, d, output)
  | none => if chunk = [] then d.process output else pushLoop chunk.length d chunk output

/-- `push_to`, and `push` for the sink `Vec<u8>`. -/
def pushTo (chunk : Bytes) (output : S) :
    Except Http1ParseError (Option Http1ChunkedDecode × Http1ChunkedDecoder × S) :=
  if Http1ChunkSink.len output ≠ d.decodedLen then .error .invalidChunk
  else d.pushWithSink chunk output

/-- More bytes, decoded to a byte string. -/
def push (d : Http1ChunkedDecoder) (chunk : Bytes) (output : Bytes) :
    Except Http1ParseError (Option Http1ChunkedDecode × Http1ChunkedDecoder × Bytes) :=
  d.pushTo chunk output

/-- Feed fragments one after the other, until the decoder completes or fails. -/
def feed : Http1ChunkedDecoder → List Bytes → S →
    Except Http1ParseError (Option Http1ChunkedDecode × Http1ChunkedDecoder × S)
  | d, [], output => .ok (none, d, output)
  | d, chunk :: chunks, output => do
    let (r, d, output) ← d.pushTo chunk output
    match r with
    | some complete => .ok (some complete, d, output)
    | none => feed d chunks output

end Http1ChunkedDecoder

/-- `decode_http1_chunked_body`, with the sink as it is left behind. -/
def decodeHttp1ChunkedBody (input output : Bytes) (limits : Http1ChunkLimits) :
    Except Http1ParseError (Option Http1ChunkedDecode × Http1SliceChunkSink) := do
  let (r, _, sink) ← (Http1ChunkedDecoder.new limits).pushWithSink input
    (⟨output, 0⟩ : Http1SliceChunkSink)
  .ok (r, sink)

end Fluxheim
