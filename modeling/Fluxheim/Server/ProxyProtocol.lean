import Fluxheim.Server.Address
import Fluxheim.Server.Connection

/-!
# The PROXY protocol

The headers of both versions, as they are written to an upstream, parsed, and read from a stream.
The socket is the list of the segments that arrive, as for `serveNativeHttp1Connection`.  How an
address is parsed, `parseIp`, is fixed from outside.
-/

namespace Fluxheim.Server

open Ascii

def PROXY_PROTOCOL_V1_MAX_LINE : ℕ := 108
def PROXY_PROTOCOL_V2_HEADER_LEN : ℕ := 16
def PROXY_PROTOCOL_V2_MAX_PAYLOAD : ℕ := 4096

def PROXY_PROTOCOL_V2_SIGNATURE : Bytes :=
  [13, 10, 13, 10, 0, 13, 10] ++ ascii "QUIT" ++ [10]

/-- The line for addresses of one family. -/
def proxyV1Line (family : String) (source destination : SocketAddr) : Bytes :=
  [32].intercalate [ascii "PROXY", ascii family, source.ip.display, destination.ip.display,
    decimal source.port.toNat, decimal destination.port.toNat] ++ crlf

/-- The line for a source and a destination. -/
def proxyProtocolV1Header (source destination : Option SocketAddr) : Bytes :=
  match source, destination with
  | some source, some destination =>
    match source.ip, destination.ip with
    | .v4 _, .v4 _ => proxyV1Line "TCP4" source destination
    | .v6 _, .v6 _ => proxyV1Line "TCP6" source destination
    | _, _ => ascii "PROXY UNKNOWN" ++ crlf
  | _, _ => ascii "PROXY UNKNOWN" ++ crlf

/-- `u16::to_be_bytes`. -/
def u16ToBeBytes (n : UInt16) : Bytes :=
  [UInt8.ofNat (n.toNat / 256), UInt8.ofNat (n.toNat % 256)]

/-- `u16::from_be_bytes`. -/
def u16FromBeBytes (high low : UInt8) : UInt16 := UInt16.ofNat (high.toNat * 256 + low.toNat)

/-- The bytes for a source and a destination. -/
def proxyProtocolV2Header (source destination : Option SocketAddr) : Bytes :=
  PROXY_PROTOCOL_V2_SIGNATURE ++
    match source, destination with
    | some source, some destination =>
      match source.ip, destination.ip with
      | .v4 sourceIp, .v4 destinationIp =>
        [0x21, 0x11, 0x00, 0x0c] ++ (sourceIp.toList ++ destinationIp.toList ++
          u16ToBeBytes source.port ++ u16ToBeBytes destination.port)
      | .v6 sourceIp, .v6 destinationIp =>
        [0x21, 0x21, 0x00, 0x24] ++ (sourceIp.toList ++ destinationIp.toList ++
          u16ToBeBytes source.port ++ u16ToBeBytes destination.port)
      | _, _ => [0x21, 0x00, 0x00, 0x00]
    | _, _ => [0x21, 0x00, 0x00, 0x00]

/-! ### Parsing -/

/-- The errors of the parsers. -/
inductive DownstreamProxyProtocolParseError where
  | v1LineTooLong
  | v1NotUtf8
  | v1MissingCrlf
  | v1MissingPrefix
  | v1MissingFamily
  | v1MissingSourceAddress
  | v1MissingDestinationAddress
  | v1MissingSourcePort
  | v1MissingDestinationPort
  | v1UnexpectedFields
  | v1InvalidSourceAddress
  | v1InvalidDestinationAddress
  | v1FamilyAddressMismatch
  | invalidPort
  | v2InvalidSignature
  | v2InvalidVersion
  | v2InvalidCommand
  | v2InvalidLength
  | v2TruncatedTcp4
  | v2TruncatedTcp6
  | v2InvalidTcp6Source
  | v2UnsupportedAddressFamily
  deriving DecidableEq

/-- Their texts. -/
def DownstreamProxyProtocolParseError.asStaticStr : DownstreamProxyProtocolParseError → String
  | v1LineTooLong => "stream downstream PROXY v1 header exceeds 108 bytes"
  | v1NotUtf8 => "stream downstream PROXY v1 header is not UTF-8"
  | v1MissingCrlf => "stream downstream PROXY v1 header is missing CRLF"
  | v1MissingPrefix => "stream downstream PROXY v1 header is missing prefix"
  | v1MissingFamily => "stream downstream PROXY v1 header is missing family"
  | v1MissingSourceAddress => "stream downstream PROXY v1 header is missing source address"
  | v1MissingDestinationAddress =>
    "stream downstream PROXY v1 header is missing destination address"
  | v1MissingSourcePort => "stream downstream PROXY v1 header is missing source port"
  | v1MissingDestinationPort => "stream downstream PROXY v1 header is missing destination port"
  | v1UnexpectedFields => "stream downstream PROXY v1 header has unexpected fields"
  | v1InvalidSourceAddress => "stream downstream PROXY v1 source address is invalid"
  | v1InvalidDestinationAddress => "stream downstream PROXY v1 destination address is invalid"
  | v1FamilyAddressMismatch => "stream downstream PROXY v1 family does not match address types"
  | invalidPort => "stream downstream PROXY port is invalid"
  | v2InvalidSignature => "stream downstream PROXY v2 header has invalid signature"
  | v2InvalidVersion => "stream downstream PROXY v2 header has invalid version"
  | v2InvalidCommand => "stream downstream PROXY v2 header has invalid command"
  | v2InvalidLength => "stream downstream PROXY v2 payload length does not match its header"
  | v2TruncatedTcp4 => "stream downstream PROXY v2 TCP4 address is truncated"
  | v2TruncatedTcp6 => "stream downstream PROXY v2 TCP6 address is truncated"
  | v2InvalidTcp6Source => "stream downstream PROXY v2 TCP6 source is invalid"
  | v2UnsupportedAddressFamily => "stream downstream PROXY v2 address family is unsupported"

/-- A port. -/
def parseProxyProtocolPort (value : Bytes) : Except DownstreamProxyProtocolParseError UInt16 :=
  match parseUnsigned (2 ^ 16 - 1) value with
  | some port => .ok (UInt16.ofNat port)
  | none => .error .invalidPort

section

variable (parseIp : Bytes → Option IpAddr)

/-- The part of `parse_downstream_proxy_protocol_v1` after the fields are cut. -/
def parseProxyV1Fields (family sourceAddr destinationAddr sourcePort destinationPort : Bytes) :
    Except DownstreamProxyProtocolParseError (Option SocketAddr) := do
  let some sourceIp := parseIp sourceAddr | .error .v1InvalidSourceAddress
  let some destinationIp := parseIp destinationAddr | .error .v1InvalidDestinationAddress
  match sourceIp, destinationIp with
  | .v4 _, .v4 _ => if family ≠ ascii "TCP4" then .error .v1FamilyAddressMismatch
  | .v6 _, .v6 _ => if family ≠ ascii "TCP6" then .error .v1FamilyAddressMismatch
  | _, _ => .error .v1FamilyAddressMismatch
  let sourcePort ← parseProxyProtocolPort sourcePort
  let _destinationPort ← parseProxyProtocolPort destinationPort
  .ok (some (.new sourceIp sourcePort))

/-- The source in a line. -/
def parseDownstreamProxyProtocolV1 (line : Bytes) :
    Except DownstreamProxyProtocolParseError (Option SocketAddr) :=
  if PROXY_PROTOCOL_V1_MAX_LINE < line.length then .error .v1LineTooLong
  else if utf8Valid line = false then .error .v1NotUtf8
  else if ¬ crlf <:+ line then .error .v1MissingCrlf
  else
    match splitWhitespace (line.take (line.length - 2)) with
    | [] => .error .v1MissingPrefix
    | first :: fields =>
      if first ≠ ascii "PROXY" then .error .v1MissingPrefix
      else
        match fields with
        | [] => .error .v1MissingFamily
        | family :: fields =>
          if family = ascii "UNKNOWN" then .ok none
          else
            match fields with
            | [] => .error .v1MissingSourceAddress
            | [_] => .error .v1MissingDestinationAddress
            | [_, _] => .error .v1MissingSourcePort
            | [_, _, _] => .error .v1MissingDestinationPort
            | [sourceAddr, destinationAddr, sourcePort, destinationPort] =>
              parseProxyV1Fields parseIp family sourceAddr destinationAddr sourcePort
                destinationPort
            | _ => .error .v1UnexpectedFields

/-- `parse_downstream_proxy_protocol_v2`, for a header of 16 bytes. -/
def parseDownstreamProxyProtocolV2 (header payload : Bytes) :
    Except DownstreamProxyProtocolParseError (Option SocketAddr) :=
  let declaredLength := (u16FromBeBytes (header.getD 14 0) (header.getD 15 0)).toNat
  if PROXY_PROTOCOL_V2_MAX_PAYLOAD < declaredLength ∨ payload.length ≠ declaredLength then
    .error .v2InvalidLength
  else if header.take PROXY_PROTOCOL_V2_SIGNATURE.length ≠ PROXY_PROTOCOL_V2_SIGNATURE then
    .error .v2InvalidSignature
  else if header.getD 12 0 >>> 4 ≠ 0x2 then .error .v2InvalidVersion
  else if header.getD 12 0 &&& 0x0f = 0x00 then .ok none
  else if header.getD 12 0 &&& 0x0f ≠ 0x01 then .error .v2InvalidCommand
  else if header.getD 13 0 = 0x11 then
    if payload.length < 12 then .error .v2TruncatedTcp4
    else
      .ok (some (.new (.v4 (Vector.ofFn fun i : Fin 4 => payload.getD i 0))
        (u16FromBeBytes (payload.getD 8 0) (payload.getD 9 0))))
  else if header.getD 13 0 = 0x21 then
    if payload.length < 36 then .error .v2TruncatedTcp6
    else if h : (payload.take 16).length = 16 then
      .ok (some (.new (.v6 ⟨(payload.take 16).toArray, h⟩)
        (u16FromBeBytes (payload.getD 32 0) (payload.getD 33 0))))
    else .error .v2InvalidTcp6Source
  else if header.getD 13 0 = 0x00 then .ok none
  else .error .v2UnsupportedAddressFamily

/-- `NativeHttp1Error::Io` with its kind and message, and `FluxError::InvalidInput`. -/
inductive ProxyReadError where
  | unexpectedEof (message : String)
  | invalidData (message : String)
  | invalidInput (message : String)
  deriving DecidableEq

/-- What a reader returns, and the segments still to come. -/
abbrev ProxyRead := Except ProxyReadError (Option SocketAddr × List Bytes)

/-- The result of a parser, with its error as `fail` makes one of the text. -/
def parsedHeader (fail : String → ProxyReadError) (socket : List Bytes) :
    Except DownstreamProxyProtocolParseError (Option SocketAddr) → ProxyRead
  | .ok source => .ok (source, socket)
  | .error error => .error (fail error.asStaticStr)

/-- Read exactly `n` bytes, in at most `fuel` reads; `none` if the stream ends before. -/
def readExactLoop : ℕ → ℕ → Bytes → List Bytes → Option (Bytes × List Bytes)
  | _, 0, read, socket => some (read, socket)
  | 0, _ + 1, _, _ => none
  | fuel + 1, n + 1, read, socket =>
    match readSocket (n + 1) socket with
    | ([], _) => none
    | (chunk, socket) => readExactLoop fuel (n + 1 - chunk.length) (read ++ chunk) socket

/-- `read_exact`, and `read_exact_proxy_header`: every read returns a byte at least. -/
def readExact (n : ℕ) (socket : List Bytes) : Option (Bytes × List Bytes) :=
  readExactLoop n n [] socket

/-- The loop of `read_proxy_protocol_v1_source`, for a line that may grow by `fuel` bytes. -/
def readProxyProtocolV1Loop : ℕ → Bytes → List Bytes → ProxyRead
  | 0, _, _ => .error (.invalidData "PROXY protocol v1 header too large")
  | fuel + 1, line, socket =>
    match readSocket 1 socket with
    | ([], _) => .error (.unexpectedEof "truncated PROXY protocol v1 header")
    | (byte, socket) =>
      if crlf <:+ line ++ byte then
        parsedHeader .invalidData socket (parseDownstreamProxyProtocolV1 parseIp (line ++ byte))
      else readProxyProtocolV1Loop fuel (line ++ byte) socket

variable (socket : List Bytes)

/-- The line on an HTTP connection. -/
def readProxyProtocolV1Source : ProxyRead :=
  readProxyProtocolV1Loop parseIp PROXY_PROTOCOL_V1_MAX_LINE [] socket

/-- The loop of `read_downstream_proxy_protocol_v1`. -/
def readDownstreamProxyProtocolV1Loop : ℕ → Bytes → List Bytes → ProxyRead
  | 0, _, _ =>
    .error (.invalidInput "stream downstream PROXY protocol v1 header exceeds size limit")
  | fuel + 1, line, socket =>
    match readSocket 1 socket with
    | ([], _) => .error (.invalidInput "stream downstream PROXY protocol v1 header ended early")
    | (byte, socket) =>
      if byte = [10] then
        parsedHeader .invalidInput socket (parseDownstreamProxyProtocolV1 parseIp (line ++ byte))
      else if PROXY_PROTOCOL_V1_MAX_LINE ≤ (line ++ byte).length then
        .error (.invalidInput "stream downstream PROXY protocol v1 header exceeds size limit")
      else readDownstreamProxyProtocolV1Loop fuel (line ++ byte) socket

/-- `read_downstream_proxy_protocol_v1`; the limit ends the loop. -/
def readDownstreamProxyProtocolV1 (socket : List Bytes) : ProxyRead :=
  readDownstreamProxyProtocolV1Loop parseIp PROXY_PROTOCOL_V1_MAX_LINE [] socket

/-- The bytes on an HTTP connection. -/
def readProxyProtocolV2Source : ProxyRead :=
  match readExact PROXY_PROTOCOL_V2_HEADER_LEN socket with
  | none => .error (.unexpectedEof "early eof")
  | some (header, socket) =>
    let payloadLen := (u16FromBeBytes (header.getD 14 0) (header.getD 15 0)).toNat
    if PROXY_PROTOCOL_V2_MAX_PAYLOAD < payloadLen then
      .error (.invalidData "PROXY protocol v2 payload too large")
    else
      match readExact payloadLen socket with
      | none => .error (.unexpectedEof "early eof")
      | some (payload, socket) =>
        parsedHeader .invalidData socket (parseDownstreamProxyProtocolV2 header payload)

/-- The bytes on a stream. -/
def readDownstreamProxyProtocolV2 : ProxyRead :=
  match readExact PROXY_PROTOCOL_V2_HEADER_LEN socket with
  | none => .error (.invalidInput "stream downstream PROXY protocol header ended early")
  | some (header, socket) =>
    if header.take PROXY_PROTOCOL_V2_SIGNATURE.length ≠ PROXY_PROTOCOL_V2_SIGNATURE then
      .error (.invalidInput "stream downstream PROXY v2 header has invalid signature")
    else
      let payloadLen := (u16FromBeBytes (header.getD 14 0) (header.getD 15 0)).toNat
      if PROXY_PROTOCOL_V2_MAX_PAYLOAD < payloadLen then
        .error (.invalidInput "stream downstream PROXY v2 payload exceeds size limit")
      else
        match readExact payloadLen socket with
        | none => .error (.invalidInput "stream downstream PROXY protocol header ended early")
        | some (payload, socket) =>
          parsedHeader .invalidInput socket (parseDownstreamProxyProtocolV2 header payload)

end

end Fluxheim.Server
