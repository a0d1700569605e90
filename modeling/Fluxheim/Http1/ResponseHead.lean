import Fluxheim.Http1.Head

/-!
# Response heads

The model of `http1_response.rs`.  A response head is cut and split into lines as a request head is,
and its fields are read by the same loop; it begins with a status line, and it is not validated as a
message.
-/

namespace Fluxheim

open Ascii Fallible Search

/-- A response head. -/
structure Http1ResponseHead where
  version : Http1Version
  status : ℕ
  reason : Bytes
  headers : List Http1Header
  headLen : ℕ

/-- The status code of a status line. -/
def parseStatusCode (status : Bytes) : Except Http1ParseError ℕ :=
  if status.length ≠ 3 ∨ ¬ status.all isDigit then .error .invalidStatusCode
  else do
    let status ← okOr (parseUnsigned 65535 status) .invalidStatusCode
    if 100 ≤ status ∧ status ≤ 599 then .ok status else .error .invalidStatusCode

/-- Version, status and, up to the end of the line, the reason. -/
def parseStatusLine (line : Bytes) : Except Http1ParseError (Http1Version × ℕ × Bytes) :=
  match splitOnce 32 line with
  | none => .error .invalidResponseLine
  | some (version, rest) => do
    let (status, reason) := (splitOnce 32 rest).getD (rest, [])
    let version ← parseVersion version
    let status ← parseStatusCode status
    if reason.any headerValueForbidden then .error .invalidResponseLine
    else .ok (version, status, reason)

/-- The lines of a complete response head. -/
def parseResponseHeadLines (limits : Http1HeadLimits) (headLen : ℕ) (lines : List Bytes) :
    Except Http1ParseError Http1ResponseHead :=
  match lines with
  | [] => .error .invalidResponseLine
  | statusLine :: lines =>
    if statusLine.length > limits.maxStartLineBytes then .error .startLineTooLong
    else do
      let (version, status, reason) ← parseStatusLine statusLine
      let headers ← parseHeaderLines limits [] lines
      .ok ⟨version, status, reason, headers, headLen⟩

/-- The head at the front of the input, if it is complete. -/
def parseHttp1ResponseHead (input : Bytes) (limits : Http1HeadLimits) :
    Except Http1ParseError (Option Http1ResponseHead) := do
  match ← completeHeadLen input limits.maxHeadBytes with
  | none => .ok none
  | some headLen =>
    let head := input.take headLen
    if ¬ utf8Valid head then .error .invalidUtf8
    else do
      let head ← parseResponseHeadLines limits headLen (splitPair 13 10 head)
      .ok (some head)

/-- The headers that concern one connection only. -/
def HOP_BY_HOP_RESPONSE_HEADERS : List String :=
  ["connection", "keep-alive", "proxy-authenticate", "proxy-authorization", "proxy-connection",
    "te", "trailer", "transfer-encoding", "upgrade"]

/-- `Http1ConnectionOptions::identifies_hop_by_hop_header`, for the options in lower case. -/
def identifiesHopByHopHeader (options : List Bytes) (name : Bytes) : Bool :=
  options.contains (name.map lower) ||
    HOP_BY_HOP_RESPONSE_HEADERS.any fun candidate => eqIgnoreCase name (ascii candidate)

end Fluxheim
