import Fluxheim.Http1.Token
import Fluxheim.Lib.Search
import Fluxheim.Lib.WhiteSpace
import Mathlib.Order.Bounds.Defs

/-!
# The response of a PHP process

`parse_php_response` takes the header lines of the output up to the first `\r\n\r\n` of the whole
output, and up to the first `\n\n` only if there is none, so a blank line may be passed over.
-/

namespace Fluxheim.Server

open Ascii List Search

/-- The texts of `php_response_parse_error`; those that `std` words are given by what was read. -/
inductive PhpResponseError
  | text (detail : String)
  | utf8 (value : Bytes)
  | number (token : Bytes)
  deriving DecidableEq

/-- A response as it is parsed. -/
structure ParsedPhpResponse where
  status : ℕ
  headers : List (Bytes × Bytes)
  body : Bytes
  deriving DecidableEq

/-- The header lines and the body. -/
def splitPhpResponse (stdout : Bytes) : Except PhpResponseError (Bytes × Bytes) :=
  match findSub (crlf ++ crlf) stdout with
  | some index => .ok (stdout.take index, stdout.drop (index + 4))
  | none =>
    match findSub [10, 10] stdout with
    | some index => .ok (stdout.take index, stdout.drop (index + 2))
    | none => .error (.text "php-fpm response is missing header terminator")

variable (value : Bytes)

/-- Without the carriage return at the end. -/
def trimAsciiCr : Bytes :=
  if value.getLast? = some 13 then value.dropLast else value

/-- Without spaces and tabs at both ends. -/
def trimAscii : Bytes :=
  (value.dropWhile fun b => b == 32 || b == 9).rdropWhile fun b => b == 32 || b == 9

/-- A token. -/
def safePhpHeaderName (name : Bytes) : Bool := name ≠ [] && name.all tokenByte

/-- Printable characters, spaces and tabs. -/
def safePhpHeaderValue : Bool :=
  value.all fun b => b == 32 || b == 9 || 0x21 ≤ b && b ≤ 0x7e

/-- The number of a `Status` line. -/
def parsePhpStatus : Except PhpResponseError ℕ :=
  if utf8Valid value then
    match (splitWhitespace value).head? with
    | none => .error (.text "empty PHP Status header")
    | some token =>
      match parseUnsigned 65535 token with
      | none => .error (.number token)
      | some status =>
        if 100 ≤ status ∧ status ≤ 599 then .ok status
        else .error (.text "PHP Status header is outside HTTP status range")
  else .error (.utf8 value)

/-- The loop body: the status and the headers so far, with one more line. -/
def phpHeaderLine (head : ℕ × List (Bytes × Bytes)) (line : Bytes) :
    Except PhpResponseError (ℕ × List (Bytes × Bytes)) :=
  let line := trimAsciiCr line
  if line = [] then .ok head
  else
    match splitOnce 58 line with
    | none => .error (.text "php-fpm response header is malformed")
    | some (name, value) =>
      let name := trimAscii name
      let value := trimAscii value
      if !safePhpHeaderName name || !safePhpHeaderValue value then
        .error (.text "php-fpm response header contains unsafe bytes")
      else if eqIgnoreCase name (ascii "status") then
        (parsePhpStatus value).map fun status => (status, head.2)
      else .ok (head.1, head.2 ++ [(name, value)])

/-- The status and the headers. -/
def parsePhpHead (maxResponseHeaderBytes : ℕ) (header : Bytes) :
    Except PhpResponseError (ℕ × List (Bytes × Bytes)) :=
  if header.length > maxResponseHeaderBytes then
    .error (.text "php-fpm response headers exceed maximum size")
  else (header.splitOn 10).foldlM phpHeaderLine (200, [])

/-- The response of an output. -/
def parsePhpResponse (stdout : Bytes) (maxResponseBytes maxResponseHeaderBytes : ℕ) :
    Except PhpResponseError ParsedPhpResponse := do
  if stdout.length > maxResponseBytes then
    .error (.text "php-fpm response exceeds maximum buffered size")
  else
    let (header, body) ← splitPhpResponse stdout
    let (status, headers) ← parsePhpHead maxResponseHeaderBytes header
    pure { status, headers, body }

/-- A line begins at `i` that has nothing before its end. -/
def BlankLineAt (s : Bytes) (i : ℕ) : Prop :=
  (i = 0 ∨ s[i - 1]? = some 10) ∧ (s[i]? = some 10 ∨ s[i]? = some 13 ∧ s[i + 1]? = some 10)

instance decidableBlankLineAt (s : Bytes) (i : ℕ) : Decidable (BlankLineAt s i) :=
  inferInstanceAs (Decidable (_ ∧ _))

/-- Where the line that begins at `i` ends, if it is blank. -/
def blankLineEnd (s : Bytes) (i : ℕ) : ℕ := if s[i]? = some 10 then i + 1 else i + 2

/-- The blank line at `i` is where `split_php_response` looks first. -/
def Recognised (s : Bytes) (i : ℕ) : Prop :=
  2 ≤ i ∧ crlf ++ crlf <+: s.drop (i - 2) ∨
    0 < i ∧ s[i]? = some 10 ∧ findSub (crlf ++ crlf) s = none

theorem cons_prefix_drop_iff {b : UInt8} {p s : Bytes} {j : ℕ} :
    b :: p <+: s.drop j ↔ s[j]? = some b ∧ p <+: s.drop (j + 1) := by
  rcases lt_or_ge j s.length with h | h
  · rw [drop_eq_getElem_cons h, cons_prefix_cons, getElem?_eq_getElem h, Option.some_inj, eq_comm]
  · simp [drop_eq_nil_of_le h, getElem?_eq_none h]

theorem crlf_crlf_prefix_iff {s : Bytes} {j : ℕ} : crlf ++ crlf <+: s.drop j ↔
    s[j]? = some 13 ∧ s[j + 1]? = some 10 ∧ s[j + 2]? = some 13 ∧ s[j + 3]? = some 10 := by
  simp [crlf, cons_prefix_drop_iff]

section

variable {s : Bytes} {i : ℕ} (hi : IsLeast {i | BlankLineAt s i} i)
include hi

theorem blankLineEnd_le : blankLineEnd s i ≤ s.length := by
  obtain ⟨⟨-, h⟩, -⟩ := hi
  unfold blankLineEnd
  grind

/-- A blank line that is recognised has its own line end before it, and the body behind it. -/
theorem split_of_recognised (h : Recognised s i) :
    splitPhpResponse s = .ok (s.take (2 * i - blankLineEnd s i), s.drop (blankLineEnd s i)) := by
  obtain ⟨⟨h0, hb⟩, hmin⟩ := hi
  rcases h with ⟨h2, h⟩ | ⟨h2, h10, h⟩
  · obtain ⟨j, rfl⟩ : ∃ j, i = j + 2 := ⟨i - 2, by omega⟩
    have h13 := (crlf_crlf_prefix_iff.1 h).2.2.1
    have hf : findSub (crlf ++ crlf) s = some j := by
      refine findSub_eq_some_iff.2 ⟨h, by grind [blankLineEnd], fun k hk hp => ?_⟩
      rw [crlf_crlf_prefix_iff] at hp
      have := hmin (show BlankLineAt s (k + 2) from ⟨.inr hp.2.1, .inr hp.2.2⟩)
      omega
    have he : 2 * (j + 2) - (j + 2 + 2) = j := by omega
    simp [splitPhpResponse, blankLineEnd, hf, show s[j + 2]? = some 13 from h13, he]
  · obtain ⟨j, rfl⟩ : ∃ j, i = j + 1 := ⟨i - 1, by omega⟩
    have hf : findSub [10, 10] s = some j := by
      refine findSub_eq_some_iff.2 ⟨?_, by grind [blankLineEnd], fun k hk hp => ?_⟩
      · simpa [cons_prefix_drop_iff, h10] using h0
      · simp only [cons_prefix_drop_iff] at hp
        have := hmin (show BlankLineAt s (k + 1) from ⟨.inr hp.1, .inl hp.2.1⟩)
        omega
    have he : 2 * (j + 1) - (j + 1 + 1) = j := by omega
    simp [splitPhpResponse, blankLineEnd, h, hf, h10, he]

theorem recognised_of_split {header : Bytes}
    (h : splitPhpResponse s = .ok (header, s.drop (blankLineEnd s i)))
    (hh : header ++ [10] = s.take i ∨ header ++ crlf = s.take i) : Recognised s i := by
  have hle := blankLineEnd_le hi
  have he : s[i]? = some 10 ∧ blankLineEnd s i = i + 1 ∨ blankLineEnd s i = i + 2 := by
    unfold blankLineEnd
    split_ifs <;> simp [*]
  have hlen : header.length + 1 = i ∨ header.length + 2 = i := by
    rcases hh with hh | hh <;> have := congrArg length hh <;> simp [crlf] at this <;> omega
  -- where the pattern is found is given by the lengths of the two parts
  have hat : ∀ {j n}, j + n ≤ s.length → (s.take j, s.drop (j + n)) =
      (header, s.drop (blankLineEnd s i)) → header.length = j ∧ blankLineEnd s i = j + n := by
    intro j n hj hp
    have h1 := congrArg (length ·.1) hp
    have h2 := congrArg (length ·.2) hp
    simp at h1 h2
    omega
  unfold splitPhpResponse at h
  split at h
  · next j hf =>
    have hj := hat (n := 4) (findSub_add_length_le hf) (Except.ok.inj h)
    refine .inl ⟨by omega, ?_⟩
    convert (findSub_eq_some_iff.1 hf).1 using 2
    omega
  · next hn =>
    split at h
    · next j hf =>
      have hj := hat (n := 2) (findSub_add_length_le hf) (Except.ok.inj h)
      exact .inr ⟨by omega, (he.resolve_right (by omega)).1, hn⟩
    · cases h

theorem take_headerEnd (h : Recognised s i) :
    s.take (2 * i - blankLineEnd s i) ++ [10] = s.take i ∨
      s.take (2 * i - blankLineEnd s i) ++ crlf = s.take i := by
  obtain ⟨⟨h0, -⟩, -⟩ := hi
  rcases h with ⟨h2, h⟩ | ⟨h2, h10, -⟩
  · obtain ⟨j, rfl⟩ : ∃ j, i = j + 2 := ⟨i - 2, by omega⟩
    obtain ⟨h1, h3, h4, -⟩ := crlf_crlf_prefix_iff.1 h
    have he : 2 * (j + 2) - (j + 2 + 2) = j := by omega
    simp at h1 h3 h4
    simp [blankLineEnd, h4, he, take_add_one, h1, h3, crlf]
  · obtain ⟨j, rfl⟩ : ∃ j, i = j + 1 := ⟨i - 1, by omega⟩
    have he : 2 * (j + 1) - (j + 1 + 1) = j := by omega
    simp at h0
    simp [blankLineEnd, h10, he, take_add_one, h0]

/-- The earliest blank line is seen in the text up to its end. -/
theorem isLeast_of_take {s' : Bytes} (h : s'.take (blankLineEnd s i) = s.take (blankLineEnd s i)) :
    IsLeast {i | BlankLineAt s' i} i ∧ blankLineEnd s' i = blankLineEnd s i := by
  have hget : ∀ k < blankLineEnd s i, s'[k]? = s[k]? := by
    intro k hk
    rw [← getElem?_take_of_lt hk, h, getElem?_take_of_lt hk]
  obtain ⟨hb, hmin⟩ := hi
  have he : blankLineEnd s' i = blankLineEnd s i := by
    unfold blankLineEnd at *
    grind
  refine ⟨⟨?_, fun j hj => ?_⟩, he⟩
  · simp only [Set.mem_ofPred_eq, BlankLineAt, blankLineEnd] at *
    grind
  · by_contra hlt
    have := @hmin j
    simp only [Set.mem_ofPred_eq, BlankLineAt, blankLineEnd] at *
    grind

end

/-- The status and the headers without the body. -/
def ParsedPhpResponse.head (r : ParsedPhpResponse) :
    ℕ × List (Bytes × Bytes) := (r.status, r.headers)

theorem parsePhpResponse_head {s header body : Bytes} {m n : ℕ} (hs : s.length ≤ m)
    (h : splitPhpResponse s = .ok (header, body)) :
    (parsePhpResponse s m n).map ParsedPhpResponse.head = parsePhpHead n header ∧
      ∀ r, parsePhpResponse s m n = .ok r → r.body = body := by
  have he : parsePhpResponse s m n =
      (parsePhpHead n header).map fun head => ⟨head.1, head.2, body⟩ := by
    simp only [parsePhpResponse, h, not_lt.2 hs, if_false]
    rfl
  rw [he]
  cases parsePhpHead n header <;> simp [Except.map, ParsedPhpResponse.head]

/-- **An output without a blank line is refused.  It is divided at its earliest blank line exactly
if that line is recognised, and then the body is what follows it and the status and the headers are
the same for every other output with the same text up to its end in which it is recognised.** -/
theorem php_response_split_iff (s : Bytes) :
    ((∀ i, ¬ BlankLineAt s i) →
      splitPhpResponse s = .error (.text "php-fpm response is missing header terminator")) ∧
    ∀ i, IsLeast {i | BlankLineAt s i} i →
      ((∃ header, splitPhpResponse s = .ok (header, s.drop (blankLineEnd s i)) ∧
        (header ++ [10] = s.take i ∨ header ++ crlf = s.take i)) ↔ Recognised s i) ∧
      (Recognised s i → ∀ m n, s.length ≤ m →
        (∀ r, parsePhpResponse s m n = .ok r → r.body = s.drop (blankLineEnd s i)) ∧
        ∀ s', s'.take (blankLineEnd s i) = s.take (blankLineEnd s i) → Recognised s' i →
          s'.length ≤ m → (parsePhpResponse s' m n).map ParsedPhpResponse.head =
            (parsePhpResponse s m n).map ParsedPhpResponse.head) := by
  refine ⟨fun h => ?_, fun i hi => ⟨⟨?_, fun h => ?_⟩, fun h m n hm => ?_⟩⟩
  · have h4 : findSub (crlf ++ crlf) s = none := findSub_eq_none_iff.2 fun j _ hp => by
      rw [crlf_crlf_prefix_iff] at hp
      exact h (j + 2) ⟨.inr hp.2.1, .inr hp.2.2⟩
    have h2 : findSub [10, 10] s = none := findSub_eq_none_iff.2 fun j _ hp => by
      simp only [cons_prefix_drop_iff] at hp
      exact h (j + 1) ⟨.inr hp.1, .inl hp.2.1⟩
    simp [splitPhpResponse, h4, h2]
  · rintro ⟨header, h, hh⟩
    exact recognised_of_split hi h hh
  · exact ⟨_, split_of_recognised hi h, take_headerEnd hi h⟩
  · have hp := parsePhpResponse_head (n := n) hm (split_of_recognised hi h)
    refine ⟨hp.2, fun s' hs' h' hm' => ?_⟩
    obtain ⟨hi', he⟩ := isLeast_of_take hi hs'
    rw [(parsePhpResponse_head hm' (split_of_recognised hi' h')).1, hp.1, he]
    have hlt : i < blankLineEnd s i := by unfold blankLineEnd; split_ifs <;> omega
    have ht := congrArg (take (2 * i - blankLineEnd s i)) hs'
    rw [take_take, take_take, min_eq_left (by omega)] at ht
    rw [ht]

/-- The blank line of a response with `\r\n` is recognised whatever the body is. -/
theorem php_response_split_iff_crlf :
    ∃ header, splitPhpResponse (ascii "A: b\r\n\r\n\n\nx") = .ok (header, ascii "\n\nx") ∧
      (header ++ [10] = ascii "A: b\r\n" ∨ header ++ crlf = ascii "A: b\r\n") :=
  have hall : ∀ j < 6, ¬ BlankLineAt (ascii "A: b\r\n\r\n\n\nx") j := by decide +kernel
  ((php_response_split_iff _).2 6 ⟨by decide +kernel,
    fun j hj => not_lt.1 fun h => hall j h hj⟩).1.2 (.inl (by decide +kernel))

/-- The body of a response with `\n` adds a header, as it has a `\r\n\r\n`. -/
theorem php_body_adds_header :
    (BlankLineAt (ascii "A: b\n\nC: d\r\n\r\nx") 5 ∧
      ∀ j < 5, ¬ BlankLineAt (ascii "A: b\n\nC: d\r\n\r\nx") j) ∧
    parsePhpResponse (ascii "A: b\n\nC: d\r\n\r\nx") 1024 1024 =
      .ok ⟨200, [(ascii "A", ascii "b"), (ascii "C", ascii "d")], ascii "x"⟩ ∧
    parsePhpResponse (ascii "A: b\n\nC: d") 1024 1024 =
      .ok ⟨200, [(ascii "A", ascii "b")], ascii "C: d"⟩ := by
  refine ⟨by decide +kernel, ?_, ?_⟩ <;> decide +kernel

end Fluxheim.Server
