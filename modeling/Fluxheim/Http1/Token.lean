import Fluxheim.Lib.Ascii

/-!
# HTTP/1: machine integers, parse errors and tokens

The types shared by the HTTP/1 parsers of `fluxheim-protocol`: `usize` on a 64-bit target with
its checked and saturating operations, the parse errors, and `http_token_valid`.  A Rust `&str`
is modelled by its bytes.
-/

namespace Fluxheim

open Ascii

/-- A `usize` of a 64-bit target. -/
abbrev Usize := Fin (2 ^ 64)

/-- `usize::MAX`. -/
def usizeMax : ℕ := 2 ^ 64 - 1

/-- `u64::MAX`. -/
def u64Max : ℕ := 2 ^ 64 - 1

theorem Usize.le_usizeMax (n : Usize) : (n : ℕ) ≤ usizeMax := by
  unfold usizeMax
  omega

/-- A sum that must fit. -/
def checkedAdd (a b : ℕ) : Option ℕ := if a + b ≤ usizeMax then some (a + b) else none

/-- A product that must fit. -/
def checkedMul (a b : ℕ) : Option ℕ := if a * b ≤ usizeMax then some (a * b) else none

/-- A sum that stops at the largest number. -/
def saturatingAdd (a b : ℕ) : ℕ := min (a + b) usizeMax

theorem checkedAdd_of_le {a b : ℕ} (h : a + b ≤ usizeMax) : checkedAdd a b = some (a + b) :=
  if_pos h

theorem checkedAdd_of_gt {a b : ℕ} (h : usizeMax < a + b) : checkedAdd a b = none :=
  if_neg (by omega)

/-- The unsigned numbers that `str::parse` reads: an optional `+` and at least one digit, with a
value of at most `max`. -/
def parseUnsigned (max : ℕ) (x : Bytes) : Option ℕ :=
  let digits := match x with
    | 43 :: rest => rest
    | _ => x
  if digits ≠ [] ∧ digits.all isDigit ∧ decimalValue digits ≤ max then some (decimalValue digits)
  else none

theorem parseUnsigned_of_isDigit {max : ℕ} {x : Bytes} (hx : x ≠ []) (hd : x.all isDigit = true) :
    parseUnsigned max x = if decimalValue x ≤ max then some (decimalValue x) else none := by
  have hplus : ∀ rest, x ≠ 43 :: rest := by
    rintro rest rfl
    simp [isDigit] at hd
  unfold parseUnsigned
  split
  · exact absurd rfl (hplus _)
  · simp [hx, hd]

/-- A numeral is read. -/
theorem parseUnsigned_decimal {max n : ℕ} (h : n ≤ max) :
    parseUnsigned max (decimal n) = some n := by
  rw [parseUnsigned_of_isDigit (decimal_ne_nil n) (decimal_all_isDigit n), decimalValue_decimal,
    if_pos h]

/-- The errors of the parsers. -/
inductive Http1ParseError
  | bodyTooLarge
  | chunkTooLarge
  | chunkMetadataTooLarge
  | conflictingBodyFraming
  | conflictingAuthority
  | duplicateContentLength
  | duplicateHost
  | headerCountExceeded
  | headerLineTooLong
  | headTooLarge
  | invalidConnection
  | invalidContentLength
  | invalidChunk
  | invalidChunkSize
  | invalidAuthority
  | invalidHost
  | invalidHeaderName
  | invalidHeaderValue
  | invalidRequestLine
  | invalidRequestTarget
  | invalidResponseLine
  | invalidStatusCode
  | invalidUtf8
  | missingHost
  | encodedBodyTooLarge
  | obsoleteLineFolding
  | outputTooSmall
  | startLineTooLong
  | unsupportedTransferEncoding
  | unsupportedVersion
  deriving DecidableEq

/-- The line end `\r\n`. -/
def crlf : Bytes := [13, 10]

theorem crlf_length : crlf.length = 2 := rfl

/-- The characters of an RFC 7230 token: the letters, the digits, and `!`, `#`, `$`, `%`, `&`, the
apostrophe, `*`, `+`, `-`, `.`, `^`, `_`, the backquote, `|` and `~`. -/
def tokenByte (b : UInt8) : Bool :=
  [33, 35, 36, 37, 38, 39, 42, 43, 45, 46, 94, 95, 96, 124, 126].contains b || isAlphanumeric b

/-- A token, not empty. -/
def httpTokenValid (value : Bytes) : Bool := value ≠ [] && value.all tokenByte

theorem httpTokenValid_iff {v : Bytes} :
    httpTokenValid v = true ↔ v ≠ [] ∧ ∀ b ∈ v, tokenByte b = true := by
  simp [httpTokenValid]

/-- Token characters are visible ASCII characters other than the delimiters. -/
theorem tokenByte_spec (b : UInt8) : tokenByte b = true → 33 ≤ b ∧ b ≤ 126 ∧ b ≠ 34 ∧ b ≠ 44 ∧
    b ≠ 47 ∧ b ≠ 58 ∧ b ≠ 59 ∧ b ≠ 61 ∧ b ≠ 63 ∧ b ≠ 64 := by
  revert b; apply forall_byte; decide +kernel

end Fluxheim
