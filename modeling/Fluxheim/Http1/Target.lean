import Fluxheim.Lib.Fallible
import Fluxheim.Lib.Search
import Fluxheim.Http1.Token

/-!
# Request targets and authorities

The model of `http1_target.rs`: the four forms of a request target, the authority (a host name or
a bracketed IPv6 address, with an optional port), and the bytes that a path or a query may have.

`Ipv6Addr::from_str` of the standard library is modelled as `ipv6AddrValid`, which follows its
parser and drops the address, since only its validity is used.
-/

namespace Fluxheim

open Ascii Fallible Search

/-- `read_number` for one to `maxDigits` digits: the rest of the input. -/
def readNumber (digit : UInt8 → Option ℕ) (radix maxDigits maxValue : ℕ) (allowZeroPrefix : Bool)
    (x : Bytes) : Option Bytes :=
  let digits := x.takeWhile fun b => (digit b).isSome
  if maxDigits < digits.length ∨ digits = [] then none
  else if ¬ allowZeroPrefix ∧ digits.head? = some 48 ∧ 1 < digits.length then none
  else if maxValue < digits.foldl (fun v b => v * radix + (digit b).getD 0) 0 then none
  else some (x.drop digits.length)

/-- An octet of an IPv4 address. -/
def readOctet : Bytes → Option Bytes :=
  readNumber (fun b => if isDigit b then hexValue b else none) 10 3 255 false

/-- A group of an IPv6 address. -/
def readGroup : Bytes → Option Bytes := readNumber hexValue 16 4 65535 true

/-- One given byte. -/
def readGivenChar (c : UInt8) : Bytes → Option Bytes
  | [] => none
  | b :: x => if b = c then some x else none

/-- A separator, but not before the first part. -/
def readSeparator (c : UInt8) (index : ℕ) (inner : Bytes → Option Bytes) (x : Bytes) :
    Option Bytes :=
  if index = 0 then inner x else (readGivenChar c x).bind inner

/-- Four octets. -/
def readIpv4Addr (x : Bytes) : Option Bytes :=
  (readSeparator 46 0 readOctet x).bind fun x =>
    (readSeparator 46 1 readOctet x).bind fun x =>
      (readSeparator 46 2 readOctet x).bind fun x => readSeparator 46 3 readOctet x

/-- `read_groups` with `slots` groups left to fill from the index `i` on: the number of groups read,
whether an IPv4 address was read at the end, and the rest of the input. -/
def readGroups : (slots i : ℕ) → Bytes → ℕ × Bool × Bytes
  | 0, i, x => (i, false, x)
  | slots + 1, i, x =>
    match if 0 < slots then readSeparator 58 i readIpv4Addr x else none with
    | some rest => (i + 2, true, rest)
    | none =>
      match readSeparator 58 i readGroup x with
      | some rest => readGroups slots (i + 1) rest
      | none => (i, false, x)

/-- `Ipv6Addr::from_str` succeeds. -/
def ipv6AddrValid (x : Bytes) : Bool :=
  match readGroups 8 0 x with
  | (headSize, headIpv4, rest) =>
    if headSize = 8 then rest = []
    else if headIpv4 then false
    else
      match rest with
      | 58 :: 58 :: rest => (readGroups (8 - (headSize + 1)) 0 rest).2.2 = []
      | _ => false

/-- The bytes that no authority has. -/
def authorityForbidden (b : UInt8) : Bool :=
  b ≤ 0x20 || 0x7f ≤ b || [47, 63, 35, 92, 64, 44].contains b

/-- Digits, up to 65535. -/
def validateAuthorityPort (port : Bytes) : Except Http1ParseError Unit :=
  if port = [] ∨ ¬ port.all isDigit then .error .invalidAuthority
  else
    match parseUnsigned 65535 port with
    | some _ => .ok ()
    | none => .error .invalidAuthority

/-- A label of a host name. -/
def hostLabelValid (label : Bytes) : Bool :=
  label ≠ [] && label.head? ≠ some 45 && label.getLast? ≠ some 45 &&
    label.all fun b => isAlphanumeric b || b = 45

/-- A host name: labels between dots. -/
def hostNameValid (host : Bytes) : Bool :=
  host ≠ [] && host.head? ≠ some 46 && host.getLast? ≠ some 46 &&
    (host.splitOn 46).all hostLabelValid

/-- The authority after its opening bracket. -/
def validateBracketedAuthority (bracketed : Bytes) : Except Http1ParseError Unit :=
  match splitOnce 93 bracketed with
  | none => .error .invalidAuthority
  | some (address, suffix) =>
    if ¬ ipv6AddrValid address then .error .invalidAuthority
    else
      match suffix with
      | [] => .ok ()
      | 58 :: port => validateAuthorityPort port
      | _ => .error .invalidAuthority

variable (value : Bytes)

/-- A host name or a bracketed address, with a port or without. -/
def validateHttp1Authority : Except Http1ParseError Unit :=
  if value = [] ∨ value.any authorityForbidden then .error .invalidAuthority
  else
    match value with
    | 91 :: bracketed => validateBracketedAuthority bracketed
    | _ =>
      if value.contains 91 ∨ value.contains 93 ∨ 1 < value.count 58 then .error .invalidAuthority
      else
        match splitOnce 58 value with
        | none => if hostNameValid value then .ok () else .error .invalidAuthority
        | some (host, port) =>
          if hostNameValid host then validateAuthorityPort port else .error .invalidAuthority

/-- The bytes that need no escape. -/
def uriComponentByteAllowed (b : UInt8) (query : Bool) : Bool :=
  isAlphanumeric b ||
    [45, 46, 95, 126, 33, 36, 38, 39, 40, 41, 42, 43, 44, 59, 61, 58, 64, 47].contains b ||
    query && b = 63

/-- `validate_uri_component`: a percent sign is followed by two hexadecimal digits. -/
def uriComponentValid (query : Bool) : Bytes → Bool
  | [] => true
  | 37 :: a :: b :: x => isHexDigit a && isHexDigit b && uriComponentValid query x
  | b :: x => b ≠ 37 && uriComponentByteAllowed b query && uriComponentValid query x

/-- A path, not empty. -/
def validatePath : Except Http1ParseError Unit :=
  if value ≠ [] ∧ uriComponentValid false value then .ok () else .error .invalidRequestTarget

/-- A query. -/
def validateQuery : Except Http1ParseError Unit :=
  if uriComponentValid true value then .ok () else .error .invalidRequestTarget

/-- A path, and what follows the first question mark. -/
def splitQuery : Except Http1ParseError (Bytes × Option Bytes) :=
  match splitOnce 63 value with
  | none => do
    validatePath value
    .ok (value, none)
  | some (path, query) => do
    validatePath path
    validateQuery query
    .ok (path, some query)

/-- The four forms. -/
inductive Http1RequestTarget
  | origin (raw path : Bytes) (query : Option Bytes)
  | absoluteUri (raw scheme : Bytes) (authority path query : Option Bytes)
  | authority (raw : Bytes) (port : ℕ)
  | asterisk
  deriving DecidableEq

/-- White space, control characters, and what is not ASCII. -/
def targetHasForbiddenByte : Bool := value.any fun b => b ≤ 0x20 || 0x7f ≤ b

/-- A slash follows the first colon. -/
def targetContainsSchemeSlashes (target : Bytes) : Bool :=
  match splitOnce 58 target with
  | some (_, 47 :: _) => true
  | _ => false

/-- The port, which `CONNECT` must have. -/
def authorityFormPort (authority : Bytes) : Except Http1ParseError ℕ := do
  let (host, port) ←
    if authority.head? = some 91 then
      match splitOnce 93 authority with
      | some (host, 58 :: port) => .ok (host ++ [93], port)
      | _ => .error .invalidRequestTarget
    else
      match splitOnce 58 authority with
      | none => .error .invalidRequestTarget
      | some (host, port) =>
        if port.contains 58 then .error .invalidRequestTarget else .ok (host, port)
  if host = [] ∨ port = [] then .error .invalidRequestTarget
  else okOr (parseUnsigned 65535 port) .invalidRequestTarget

/-- The path and query of an absolute URI. -/
def splitPathAndQuery (pathAndQuery : Bytes) :
    Except Http1ParseError (Option Bytes × Option Bytes) :=
  match pathAndQuery with
  | [] => .ok (none, none)
  | 63 :: query => do
    validateQuery query
    .ok (none, some query)
  | _ => do
    let (path, query) ← splitQuery pathAndQuery
    .ok (some path, query)

/-- `parse_absolute_uri`, with the target cut at its first colon. -/
def parseAbsoluteUri (target scheme afterScheme : Bytes) :
    Except Http1ParseError Http1RequestTarget :=
  if ¬ eqIgnoreCase scheme (ascii "http") ∧ ¬ eqIgnoreCase scheme (ascii "https") then
    .error .invalidRequestTarget
  else
    match afterScheme with
    | 47 :: 47 :: afterSlashes => do
      let authority := afterSlashes.takeWhile fun b => b ≠ 47 && b ≠ 63
      validateHttp1Authority authority
      let (path, query) ← splitPathAndQuery (afterSlashes.drop authority.length)
      .ok (.absoluteUri target scheme (some authority) path query)
    | _ => .error .invalidRequestTarget

/-- The target of a request. -/
def http1RequestTarget (method target : Bytes) : Except Http1ParseError Http1RequestTarget :=
  if target = [] ∨ targetHasForbiddenByte target then .error .invalidRequestTarget
  else if target = ascii "*" then
    if eqIgnoreCase method (ascii "OPTIONS") then .ok .asterisk else .error .invalidRequestTarget
  else if eqIgnoreCase method (ascii "CONNECT") then
    if target.head? = some 47 ∨ targetContainsSchemeSlashes target then
      .error .invalidRequestTarget
    else do
      let port ← authorityFormPort target
      validateHttp1Authority target
      .ok (.authority target port)
  else if (ascii "//").isPrefixOf target then .error .invalidRequestTarget
  else if target.head? = some 47 then do
    let (path, query) ← splitQuery target
    .ok (.origin target path query)
  else
    match splitOnce 58 target with
    | some (scheme, afterScheme) => parseAbsoluteUri target scheme afterScheme
    | none => .error .invalidRequestTarget

/-- An accepted target is not empty and has only visible ASCII characters. -/
theorem http1RequestTarget_bytes {method target : Bytes} {t : Http1RequestTarget}
    (h : http1RequestTarget method target = .ok t) :
    target ≠ [] ∧ ∀ b ∈ target, 33 ≤ b ∧ b ≤ 126 := by
  unfold http1RequestTarget at h
  by_cases hbad : target = [] ∨ targetHasForbiddenByte target
  · rw [if_pos hbad] at h
    cases h
  · rw [not_or, targetHasForbiddenByte, List.any_eq_true, not_exists] at hbad
    refine ⟨hbad.1, fun b hb => ?_⟩
    have hvisible : ∀ b : UInt8, ¬ ((b ≤ 0x20 || 0x7f ≤ b) = true) → 33 ≤ b ∧ b ≤ 126 := by
      apply forall_byte; decide +kernel
    exact hvisible b fun hfor => hbad.2 b ⟨hb, hfor⟩

/-- A valid authority has only visible ASCII characters, none of them a comma or a delimiter of
a URI. -/
theorem validateHttp1Authority_bytes {v : Bytes} (h : validateHttp1Authority v = .ok ()) :
    v ≠ [] ∧ ∀ b ∈ v, authorityForbidden b = false := by
  unfold validateHttp1Authority at h
  by_cases hbad : v = [] ∨ v.any authorityForbidden
  · rw [if_pos hbad] at h
    cases h
  · rw [not_or, List.any_eq_true, not_exists] at hbad
    refine ⟨hbad.1, fun b hb => ?_⟩
    cases hf : authorityForbidden b with
    | false => rfl
    | true => exact absurd ⟨hb, hf⟩ (hbad.2 b)

end Fluxheim
