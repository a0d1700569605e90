import Fluxheim.Server.Connection

/-!
# Requests to an upstream

The model of `native_http1_client/request.rs` and `native_http1_forwarded.rs`: a request is written
with a request line in origin form, the headers that the proxy owns, the headers of the client that
are end to end, and the body.  The trace identifier of the attempt, which the telemetry of the task
holds, is an argument.
-/

namespace Fluxheim

open Ascii Fallible Search

def HOP_BY_HOP_REQUEST_HEADERS : List String :=
  ["connection", "keep-alive", "proxy-connection", "proxy-authenticate",
    "proxy-authorization", "te", "trailer", "transfer-encoding", "upgrade"]

def FLUXHEIM_VIA_VALUE : Bytes := ascii "1.1 fluxheim"

/-- The proxy behind the others. -/
def appendFluxheimViaValue (existing : Bytes) : Bytes :=
  if trim existing = [] then FLUXHEIM_VIA_VALUE
  else trim existing ++ ascii ", " ++ FLUXHEIM_VIA_VALUE

variable (name : Bytes)

/-- A name is the given one, in any case. -/
def nameIs (other : String) : Bool := eqIgnoreCase name (ascii other)

/-- A value that can be written. -/
def validUpstreamHeaderValue (value : Bytes) : Bool := !value.any headerValueForbidden

/-- A header that can be written. -/
def validUpstreamRequestHeader (name value : Bytes) : Bool :=
  httpTokenValid name && validUpstreamHeaderValue value

/-- A line of a header as it is written. -/
def headerLine (name value : Bytes) : Bytes := name ++ ascii ": " ++ value ++ crlf

variable (request : NativeHttp1Request)

/-- The `Via` line. -/
def writeOwnedProxyHeaders : Bytes :=
  let via := (ascii ", ").intercalate ((request.headers.filter fun header =>
    nameIs header.1 "via" && validUpstreamRequestHeader header.1 header.2).map Prod.snd)
  headerLine (ascii "via") (appendFluxheimViaValue via)

/-- Headers that the proxy writes itself. -/
def upstreamOwnedHeader : Bool :=
  nameIs name "host" || nameIs name "content-length" || nameIs name "transfer-encoding" ||
    nameIs name "via"

/-- Headers between cache peers. -/
def nativePeerFillInternalHeader (name : Bytes) : Bool :=
  nameIs name "x-fluxheim-peer-fill" || nameIs name "x-fluxheim-peer-fill-nonce" ||
    nameIs name "x-fluxheim-peer-fill-request-signature" ||
    nameIs name "x-fluxheim-peer-fill-response-signature"

/-- A request of a cache peer. -/
def nativeClientRequestIsPeerFill : Bool :=
  request.headers.any fun header =>
    nameIs header.1 "x-fluxheim-peer-fill" && trim header.2 == ascii "1"

/-- Headers that are not passed on as they are. -/
def upstreamOwnedHeaderForRequest (request : NativeHttp1Request) : Bool :=
  upstreamOwnedHeader name ||
    (!nativeClientRequestIsPeerFill request && nativePeerFillInternalHeader name)

/-- What the `Connection` headers name. -/
def connectionTokens : List Bytes :=
  ((((request.headers.filter fun header => nameIs header.1 "connection").flatMap fun header =>
    header.2.splitOn 44).map trim).filter fun token => token ≠ []).map fun token =>
      token.map lower

/-- A header for this connection only. -/
def upstreamHopByHopHeader (connectionTokens : List Bytes) : Bool :=
  HOP_BY_HOP_REQUEST_HEADERS.any (fun blocked => nameIs name blocked) ||
    connectionTokens.any fun token => eqIgnoreCase token name

/-- The first host. -/
def requestHost : Option Bytes :=
  (request.headers.find? fun header => nameIs header.1 "host").map Prod.snd

/-- The host, or the authority of the upstream. -/
def validRequestHost (authority : Bytes) : Except Http1ParseError Bytes :=
  let host := (requestHost request).getD authority
  if validUpstreamHeaderValue host then .ok host else .error .invalidHeaderValue

/-- The target in origin form. -/
def upstreamOriginTarget : Except Http1ParseError Bytes := do
  match ← http1RequestTarget request.method request.target with
  | .origin .. => .ok request.target
  | .absoluteUri _ _ _ none _ => .ok (ascii "/")
  | .absoluteUri _ _ _ (some path) none => .ok path
  | .absoluteUri _ _ _ (some path) (some query) => .ok (path ++ ascii "?" ++ query)
  | .authority .. | .asterisk => .error .invalidRequestTarget

/-- The value that is written for a header. -/
def upstreamHeaderValue (attemptTraceparent : Option Bytes) (name value : Bytes) : Bytes :=
  if nameIs name "traceparent" then attemptTraceparent.getD value else value

/-- The loop of `write_upstream_request` over the headers of the request. -/
def writeClientHeaders (request : NativeHttp1Request) (attemptTraceparent : Option Bytes)
    (connectionTokens : List Bytes) : List (Bytes × Bytes) → Except Http1ParseError Bytes
  | [] => .ok []
  | (name, value) :: headers =>
    let value := upstreamHeaderValue attemptTraceparent name value
    if upstreamHopByHopHeader name connectionTokens ||
      upstreamOwnedHeaderForRequest name request then
      writeClientHeaders request attemptTraceparent connectionTokens headers
    else if ¬ validUpstreamRequestHeader name value then .error .invalidHeaderValue
    else do
      let rest ← writeClientHeaders request attemptTraceparent connectionTokens headers
      .ok (headerLine name value ++ rest)

/-- The request as it is written. -/
def writeUpstreamRequest (authority : Bytes) (request : NativeHttp1Request) (keepAlive : Bool)
    (attemptTraceparent : Option Bytes) : Except Http1ParseError Bytes := do
  let target ← upstreamOriginTarget request
  let requestLine := request.method ++ ascii " " ++ target ++ ascii " HTTP/1.1" ++ crlf
  let host ← validRequestHost request authority
  let hostLine := headerLine (ascii "host") host
  let connectionLine :=
    if keepAlive then headerLine (ascii "connection") (ascii "keep-alive")
    else headerLine (ascii "connection") (ascii "close")
  let lengthLine :=
    if request.body ≠ [] then headerLine (ascii "content-length") (decimal request.body.length)
    else []
  let clientHeaders ←
    writeClientHeaders request attemptTraceparent (connectionTokens request) request.headers
  .ok (requestLine ++ hostLine ++ connectionLine ++ lengthLine ++ clientHeaders ++
    writeOwnedProxyHeaders request ++ crlf ++ request.body)

end Fluxheim
