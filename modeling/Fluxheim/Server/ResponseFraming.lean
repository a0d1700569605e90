import Fluxheim.Http1.Framing
import Fluxheim.Server.UpstreamResponse

/-!
# Two readings of the framing fields

The request parser and the reader of upstream responses read `Content-Length` and
`Transfer-Encoding` with code of their own.  The reader of responses takes a length with
`str::parse`, which admits a plus sign, and takes none at all from a response that has no body.
-/

namespace Fluxheim

open Ascii Fallible Search List

/-! ### The values of the two fields -/

/-- The digits of a length behind a plus sign. -/
def PlusValue (value : Bytes) (n : ℕ) : Prop :=
  ∃ digits, value = 43 :: digits ∧ LengthValue digits n

variable {headers : List Http1Header} {header : Http1Header} {n : ℕ} {value : Bytes}

theorem parseUnsigned_eq_some_iff :
    parseUnsigned u64Max value = some n ↔ LengthValue value n ∨ PlusValue value n := by
  have hdigits : ∀ ds : Bytes,
      (if ds ≠ [] ∧ ds.all isDigit ∧ decimalValue ds ≤ u64Max then
        some (decimalValue ds) else none) = some n ↔ LengthValue ds n := by
    intro ds
    rw [Option.ite_none_right_eq_some, Option.some.injEq]
    constructor
    · rintro ⟨⟨hne, hall, hle⟩, rfl⟩
      exact ⟨hne, all_eq_true.1 hall, rfl, hle⟩
    · rintro ⟨hne, hall, rfl, hle⟩
      exact ⟨⟨hne, all_eq_true.2 hall, hle⟩, rfl⟩
  by_cases hplus : ∃ ds, value = 43 :: ds
  · obtain ⟨ds, rfl⟩ := hplus
    refine (hdigits ds).trans ⟨fun h => .inr ⟨ds, rfl, h⟩, ?_⟩
    rintro (h | ⟨ds', heq, h⟩)
    · exact absurd (h.digits 43 mem_cons_self) (by decide)
    · cases heq
      exact h
  · have hread : parseUnsigned u64Max value =
        if value ≠ [] ∧ value.all isDigit ∧ decimalValue value ≤ u64Max then
          some (decimalValue value) else none := by
      rw [parseUnsigned]
      exact fun rest h => hplus ⟨rest, h⟩
    rw [hread, hdigits]
    refine ⟨.inl, ?_⟩
    rintro (h | ⟨ds, rfl, -⟩)
    · exact h
    · exact absurd ⟨ds, rfl⟩ hplus

/-- The length that a response gives. -/
def parseResponseLength (value : Bytes) : Except Http1ParseError ℕ :=
  okOr (parseUnsigned u64Max (trim value)) .invalidContentLength

theorem parseResponseLength_iff :
    parseResponseLength header.value = .ok n ↔
      LengthValue header.value n ∨ PlusValue header.value n := by
  rw [parseResponseLength, header.value_trimmed, okOr_eq_ok, parseUnsigned_eq_some_iff]

/-- The one coding that a response gives. -/
def parseResponseCoding (value : Bytes) : Except Http1ParseError Bytes := do
  let coding ← responseCodings none (value.splitOn 44)
  okOr coding .unsupportedTransferEncoding

theorem responseCodings_eq_ok_iff {codings : List Bytes} {before after : Option Bytes}
    (hne : codings ≠ []) :
    responseCodings before codings = .ok after ↔ before = none ∧ ∃ coding,
      codings = [coding] ∧ httpTokenValid (trim coding) = true ∧ after = some (trim coding) := by
  obtain ⟨coding, rest, rfl⟩ := exists_cons_of_ne_nil hne
  rw [responseCodings]
  constructor
  · intro h
    split_ifs at h with hbad
    rw [not_or, not_or, not_not, Option.not_isSome_iff_eq_none] at hbad
    obtain ⟨-, htok, rfl⟩ := hbad
    cases rest with
    | nil =>
      cases h
      exact ⟨rfl, coding, rfl, htok, rfl⟩
    | cons second rest =>
      rw [responseCodings, if_pos (.inr (.inr rfl))] at h
      cases h
  · rintro ⟨rfl, coding', heq, htok, rfl⟩
    cases heq
    have hne : trim coding ≠ [] := (httpTokenValid_iff.1 htok).1
    rw [if_neg (by simp [hne, htok]), responseCodings]

theorem parseResponseCoding_iff {value coding : Bytes} :
    parseResponseCoding value = .ok coding ↔
      responseCodings none (value.splitOn 44) = .ok (some coding) := by
  rw [parseResponseCoding, bind_eq_ok]
  constructor
  · rintro ⟨found, hfound, h⟩
    rw [hfound, okOr_eq_ok.1 h]
  · intro h
    exact ⟨some coding, h, rfl⟩

/-- A coding that a response gives is the whole value. -/
theorem responseCoding_eq {coding : Bytes}
    (h : parseResponseCoding header.value = .ok coding) : coding = header.value := by
  obtain ⟨-, found, hsplit, -, heq⟩ :=
    (responseCodings_eq_ok_iff (splitOn_ne_nil _ _)).1 (parseResponseCoding_iff.1 h)
  have hjoin : [44].intercalate (header.value.splitOn 44) = header.value :=
    intercalate_splitOn 44
  rw [hsplit, intercalate_singleton] at hjoin
  rw [hjoin, header.value_trimmed] at heq
  exact Option.some.inj heq

theorem parseResponseCoding_of_chunked (h : eqIgnoreCase header.value (ascii "chunked") = true) :
    parseResponseCoding header.value = .ok header.value := by
  have htok := httpTokenValid_of_eqIgnoreCase h chunked_token
  have hcom : 44 ∉ header.value := fun hmem =>
    (tokenByte_spec 44 ((httpTokenValid_iff.1 htok).2 44 hmem)).2.2.2.1 rfl
  have hsplit : header.value.splitOn 44 = [header.value] := splitOn_eq_singleton hcom
  rw [parseResponseCoding_iff, responseCodings_eq_ok_iff (splitOn_ne_nil _ _)]
  exact ⟨rfl, header.value, hsplit, by rwa [header.value_trimmed], by rw [header.value_trimmed]⟩

/-- **What the loop keeps**: each of the two fields is taken once at most. -/
theorem responseFramingLoop_eq_ok_iff {length length' : Option ℕ} {coding coding' : Option Bytes} :
    responseFramingLoop length coding headers = .ok (length', coding') ↔
      Takes parseResponseLength length (fieldsNamed "content-length" headers) length' ∧
        Takes parseResponseCoding coding (fieldsNamed "transfer-encoding" headers) coding' := by
  induction headers generalizing length coding with
  | nil =>
    simp only [responseFramingLoop, Except.ok.injEq, Prod.mk.injEq, fieldsNamed, filter_nil,
      Takes, reduceCtorEq, false_and, exists_false, and_false, or_false, true_and, eq_comm]
  | cons header headers ih =>
    rw [responseFramingLoop]
    by_cases hlen : header.named "content-length" = true
    · have hother := header.not_named_of_named hlen (b := "transfer-encoding") (by decide +kernel)
      rw [if_pos hlen, fieldsNamed_cons_of_named hlen, fieldsNamed_cons_of_not_named hother,
        takes_cons, bind_eq_ok]
      constructor
      · rintro ⟨a, hparse, h⟩
        split_ifs at h with hsome
        exact ⟨⟨by simpa using hsome, a, hparse, (ih.1 h).1⟩, (ih.1 h).2⟩
      · rintro ⟨⟨rfl, a, hparse, htakes⟩, hcoding⟩
        exact ⟨a, hparse, ih.2 ⟨htakes, hcoding⟩⟩
    · rw [if_neg hlen, fieldsNamed_cons_of_not_named hlen]
      by_cases henc : header.named "transfer-encoding" = true
      · rw [if_pos henc, fieldsNamed_cons_of_named henc, takes_cons, bind_eq_ok]
        constructor
        · rintro ⟨found, hcodings, h⟩
          obtain ⟨rfl, c, -, -, rfl⟩ :=
            (responseCodings_eq_ok_iff (splitOn_ne_nil _ _)).1 hcodings
          exact ⟨(ih.1 h).1, rfl, _, parseResponseCoding_iff.2 hcodings, (ih.1 h).2⟩
        · rintro ⟨htakes, rfl, c, hparse, hrest⟩
          exact ⟨some c, parseResponseCoding_iff.1 hparse, ih.2 ⟨htakes, hrest⟩⟩
      · rw [if_neg henc, fieldsNamed_cons_of_not_named henc]
        exact ih

/-- `Transfer-Encoding` as a response may have it. -/
def CodingFields (headers : List Http1Header) : Prop :=
  ∃ field, fieldsNamed "transfer-encoding" headers = [field] ∧
    eqIgnoreCase field.value (ascii "chunked") = true

/-- `Content-Length` as a response may have it. -/
def ResponseLength (headers : List Http1Header) (n : ℕ) : Prop :=
  ∃ field, fieldsNamed "content-length" headers = [field] ∧
    (LengthValue field.value n ∨ PlusValue field.value n)

/-- The fields that stand for a framing of a response with a body. -/
def ResponseFramedAs (headers : List Http1Header) : ResponseBodyFraming → Prop
  | .noBody => False
  | .contentLength n => fieldsNamed "transfer-encoding" headers = [] ∧ ResponseLength headers n
  | .chunked => CodingFields headers ∧
      (fieldsNamed "content-length" headers = [] ∨ ∃ n, ResponseLength headers n)
  | .closeDelimited => fieldsNamed "transfer-encoding" headers = [] ∧
      fieldsNamed "content-length" headers = []

theorem takes_length_iff :
    Takes parseResponseLength none (fieldsNamed "content-length" headers) (some n) ↔
      ResponseLength headers n := by
  rw [takes_none_some]
  simp only [parseResponseLength_iff, ResponseLength]

theorem LengthValue.le_usizeMax (h : LengthValue value n) : n ≤ usizeMax := h.le_max

theorem ResponseLength.le_usizeMax (h : ResponseLength headers n) : n ≤ usizeMax := by
  obtain ⟨field, -, hv | ⟨ds, -, hv⟩⟩ := h
  · exact hv.le_usizeMax
  · exact hv.le_usizeMax

variable {framing : ResponseBodyFraming}

theorem responseBodyFraming_eq_ok_iff {status : ℕ} {method : Bytes}
    (hbody : bodiless status method = false) :
    responseBodyFraming status method headers = .ok framing ↔ ResponseFramedAs headers framing := by
  unfold responseBodyFraming
  rw [if_neg (by simp [hbody]), bind_eq_ok]
  constructor
  · rintro ⟨⟨length, coding⟩, hloop, h⟩
    obtain ⟨hlen, hcoding⟩ := responseFramingLoop_eq_ok_iff.1 hloop
    dsimp only at h
    cases coding with
    | some coding =>
      obtain ⟨field, hfields, hparse⟩ := takes_none_some.1 hcoding
      obtain rfl := responseCoding_eq hparse
      split_ifs at h with hchunked
      · cases h
        refine ⟨⟨field, hfields, hchunked⟩, ?_⟩
        cases length with
        | none => exact .inl (takes_none_none.1 hlen)
        | some n => exact .inr ⟨n, takes_length_iff.1 hlen⟩
      · exact absurd rfl ‹¬ (some field.value).isSome = true›
    | none =>
      have hnone := takes_none_none.1 hcoding
      rw [if_neg (by simp)] at h
      cases length with
      | none =>
        cases h
        exact ⟨hnone, takes_none_none.1 hlen⟩
      | some n =>
        dsimp only at h
        split_ifs at h
        cases h
        exact ⟨hnone, takes_length_iff.1 hlen⟩
  · intro h
    cases framing with
    | noBody => cases h
    | closeDelimited =>
      exact ⟨(none, none), responseFramingLoop_eq_ok_iff.2
        ⟨takes_none_none.2 h.2, takes_none_none.2 h.1⟩, rfl⟩
    | contentLength n =>
      refine ⟨(some n, none), responseFramingLoop_eq_ok_iff.2
        ⟨takes_length_iff.2 h.2, takes_none_none.2 h.1⟩, ?_⟩
      exact if_pos h.2.le_usizeMax
    | chunked =>
      obtain ⟨⟨field, hfields, hchunked⟩, hlen⟩ := h
      have hcoding : Takes parseResponseCoding none (fieldsNamed "transfer-encoding" headers)
          (some field.value) :=
        takes_none_some.2 ⟨field, hfields, parseResponseCoding_of_chunked hchunked⟩
      rcases hlen with hlen | ⟨n, hlen⟩
      · exact ⟨(none, some field.value), responseFramingLoop_eq_ok_iff.2
          ⟨takes_none_none.2 hlen, hcoding⟩, if_pos hchunked⟩
      · exact ⟨(some n, some field.value), responseFramingLoop_eq_ok_iff.2
          ⟨takes_length_iff.2 hlen, hcoding⟩, if_pos hchunked⟩

/-- A response ends where a request that is framed as given would end.  The fields say nothing of
the end of a response that has no body, or that ends with its connection. -/
def SameEnd : ResponseBodyFraming → Http1BodyFraming → Prop
  | .noBody, _ => True
  | .contentLength n, .contentLength m => n = m
  -- the request parser takes a length of zero for no body
  | .contentLength n, .noBody => n = 0
  | .chunked, .chunked => True
  | .closeDelimited, .noBody => True
  | _, _ => False

/-- The fields of a response with a body that the request parser refuses: a length behind a plus
sign, or a length next to a coding. -/
def RefusedFields (headers : List Http1Header) : Prop :=
  (fieldsNamed "transfer-encoding" headers = [] ∧
    ∃ field n, fieldsNamed "content-length" headers = [field] ∧ PlusValue field.value n) ∨
  (CodingFields headers ∧ ∃ n, ResponseLength headers n)

theorem not_plusValue_of_lengthValue {n m : ℕ} (h : LengthValue value n) : ¬ PlusValue value m := by
  rintro ⟨ds, rfl, -⟩
  exact absurd (h.digits 43 mem_cons_self) (by decide)

variable {request : Http1BodyFraming}

/-- The request parser accepts lengths of digits only. -/
theorem FramedAs.lengthValue (h : FramedAs .http11 headers request) :
    ∀ field ∈ fieldsNamed "content-length" headers, ∃ n, LengthValue field.value n := by
  have hone : ∀ {n}, LengthFields n headers →
      ∀ field ∈ fieldsNamed "content-length" headers, ∃ n, LengthValue field.value n := by
    rintro n ⟨-, only, hfields, hvalue⟩ field hfield
    rw [hfields, mem_singleton] at hfield
    exact ⟨n, hfield ▸ hvalue⟩
  have hnone : fieldsNamed "content-length" headers = [] →
      ∀ field ∈ fieldsNamed "content-length" headers, ∃ n, LengthValue field.value n := by
    intro hnil field hfield
    rw [hnil] at hfield
    cases hfield
  cases request with
  | chunked => exact hnone h.2.2
  | contentLength n => exact hone h.2
  | noBody => exact h.elim (fun hnil => hnone hnil.2) hone

/-- It refuses a length next to a coding. -/
theorem CodingFields.not_framedAs (hcoding : CodingFields headers)
    (hlength : ResponseLength headers n) : ¬ FramedAs .http11 headers request := by
  obtain ⟨coding, hcoding, -⟩ := hcoding
  obtain ⟨length, hlength, -⟩ := hlength
  intro h
  cases request with
  | chunked => exact cons_ne_nil _ _ (hlength.symm.trans h.2.2)
  | contentLength n => exact cons_ne_nil _ _ (hcoding.symm.trans h.2.1)
  | noBody =>
    rcases h with ⟨hnil, -⟩ | ⟨hnil, -⟩
    · exact cons_ne_nil _ _ (hcoding.symm.trans hnil)
    · exact cons_ne_nil _ _ (hcoding.symm.trans hnil)

/-- All other fields of a response with a body are framed alike. -/
theorem ResponseFramedAs.sameEnd (h : ResponseFramedAs headers framing)
    (hfine : ¬ RefusedFields headers) :
    ∃ request, FramedAs .http11 headers request ∧ SameEnd framing request := by
  cases framing with
  | noBody => cases h
  | closeDelimited => exact ⟨.noBody, .inl h, trivial⟩
  | contentLength n =>
    obtain ⟨hnone, field, hfields, hvalue | hplus⟩ := h
    · have hlength : LengthFields n headers := ⟨hnone, field, hfields, hvalue⟩
      rcases eq_zero_or_pos n with rfl | hpos
      · exact ⟨.noBody, .inr hlength, rfl⟩
      · exact ⟨.contentLength n, ⟨hpos, hlength⟩, rfl⟩
    · exact absurd (.inl ⟨hnone, field, n, hfields, hplus⟩) hfine
  | chunked =>
    rcases h.2 with hnil | hlength
    · exact ⟨.chunked, ⟨rfl, h.1, hnil⟩, trivial⟩
    · exact absurd (.inr ⟨h.1, hlength⟩) hfine

/-- A length behind a plus sign. -/
def plusLength : Http1Header :=
  ⟨ascii "Content-Length", ascii "+5", by decide +kernel, by decide +kernel, by decide +kernel⟩

/-- A plain length. -/
def plainLength : Http1Header :=
  ⟨ascii "Content-Length", ascii "5", by decide +kernel, by decide +kernel, by decide +kernel⟩

/-- The coding of a chunked body. -/
def chunkedCoding : Http1Header :=
  ⟨ascii "Transfer-Encoding", ascii "chunked", by decide +kernel, by decide +kernel,
    by decide +kernel⟩

end Fluxheim
