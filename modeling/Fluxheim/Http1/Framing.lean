import Fluxheim.Http1.Head

/-!
# Framing of request bodies

An exact account of `http1RequestBodyFraming`.  Its loop keeps a content length and a transfer
encoding, and stops at the first header it cannot take.  What it keeps is determined by the
`Content-Length` and the `Transfer-Encoding` fields alone, each taken apart from the other, so the
result does not depend on the order of the headers.
-/

namespace Fluxheim

open Ascii Fallible Search List

/-- The header fields with a name, in any case. -/
def fieldsNamed (name : String) (headers : List Http1Header) : List Http1Header :=
  headers.filter fun header => header.named name

variable {name : String} {header : Http1Header} {headers fields headers' : List Http1Header}

theorem fieldsNamed_cons_of_named (h : header.named name = true) :
    fieldsNamed name (header :: headers) = header :: fieldsNamed name headers :=
  filter_cons_of_pos h

theorem fieldsNamed_cons_of_not_named (h : ¬ header.named name = true) :
    fieldsNamed name (header :: headers) = fieldsNamed name headers :=
  filter_cons_of_neg h

/-- A header has one name. -/
theorem Http1Header.not_named_of_named {a b : String}
    (h : header.named a = true) (hab : eqIgnoreCase (ascii a) (ascii b) = false) :
    ¬ header.named b = true := by
  intro hb
  rw [named, eqIgnoreCase_iff] at h hb
  have : eqIgnoreCase (ascii a) (ascii b) = true := eqIgnoreCase_iff.2 (h.symm.trans hb)
  rw [this] at hab
  cases hab

/-- The value of a `Content-Length` field: digits that stand for `n`. -/
structure LengthValue (value : Bytes) (n : ℕ) : Prop where
  ne_nil : value ≠ []
  digits : ∀ b ∈ value, isDigit b = true
  value_eq : decimalValue value = n
  le_max : n ≤ u64Max

theorem parseContentLength_iff {v : Bytes} {n : ℕ} (htrim : trim v = v) :
    parseContentLength v = .ok n ↔ LengthValue v n := by
  unfold parseContentLength
  simp only [htrim]
  split_ifs with hbad
  · simp only [false_iff]
    rintro ⟨hne, hdigits, -, -⟩
    rcases hbad with hbad | hbad
    · exact hne hbad
    · exact hbad (all_eq_true.2 hdigits)
  · rw [not_or, not_not] at hbad
    rw [okOr_eq_ok, parseUnsigned_of_isDigit hbad.1 hbad.2]
    simp only [Option.ite_none_right_eq_some, Option.some.injEq]
    constructor
    · rintro ⟨hle, rfl⟩
      exact ⟨hbad.1, all_eq_true.1 hbad.2, rfl, hle⟩
    · rintro ⟨-, -, rfl, hle⟩
      exact ⟨hle, rfl⟩

theorem tokenByte_lower (b : UInt8) : tokenByte (lower b) = tokenByte b := by
  revert b; apply forall_byte; decide +kernel

/-- A text that is a token in another case is a token. -/
theorem httpTokenValid_of_eqIgnoreCase {x y : Bytes} (h : eqIgnoreCase x y = true)
    (hy : httpTokenValid y = true) : httpTokenValid x = true := by
  rw [eqIgnoreCase_iff] at h
  rw [httpTokenValid_iff] at hy ⊢
  constructor
  · rintro rfl
    exact hy.1 (map_eq_nil_iff.1 h.symm)
  · intro b hb
    have hmem : lower b ∈ y.map lower := h ▸ mem_map_of_mem hb
    obtain ⟨c, hc, hcb⟩ := mem_map.1 hmem
    rw [← tokenByte_lower, ← hcb, tokenByte_lower]
    exact hy.2 c hc

/-- The number of codings never decreases. -/
theorem parseCodings_le {n m : ℕ} {last last' : Bool} {codings : List Bytes} (hn : n ≤ usizeMax)
    (h : parseCodings n last codings = .ok (m, last')) : n ≤ m := by
  induction codings generalizing n last with
  | nil => cases h; exact le_rfl
  | cons coding codings ih =>
    rw [parseCodings] at h
    split_ifs at h
    have hstep : n ≤ saturatingAdd n 1 := le_min (Nat.le_succ n) hn
    exact hstep.trans (ih (min_le_right _ _) h)

theorem chunked_token : httpTokenValid (ascii "chunked") = true := by decide +kernel

variable {framing : Http1BodyFraming}

theorem parseTransferEncoding_iff {value : Bytes} (htrim : trim value = value) :
    parseTransferEncoding value = .ok framing ↔
      eqIgnoreCase value (ascii "chunked") = true ∧ framing = .chunked := by
  unfold parseTransferEncoding
  rw [bind_eq_ok]
  constructor
  · rintro ⟨⟨n, last⟩, hcodings, h⟩
    simp only at h
    split_ifs at h with hone
    cases h
    obtain ⟨rfl, hlast⟩ := hone
    cases hsplit : value.splitOn 44 with
    | nil => rw [hsplit] at hcodings; cases hcodings
    | cons coding rest =>
      rw [hsplit, parseCodings] at hcodings
      split_ifs at hcodings with hbad
      cases rest with
      | nil =>
        -- a single coding is the whole value
        have hv : coding = value := by
          have hjoin : [44].intercalate (value.splitOn 44) = value := intercalate_splitOn 44
          rwa [hsplit, intercalate_singleton] at hjoin
        cases hcodings
        rw [hv, htrim] at hlast
        exact ⟨hlast, rfl⟩
      | cons coding' rest =>
        rw [parseCodings] at hcodings
        split_ifs at hcodings
        have := parseCodings_le (min_le_right _ _) hcodings
        exact absurd this (by decide)
  · rintro ⟨heq, rfl⟩
    have htok := httpTokenValid_of_eqIgnoreCase heq chunked_token
    have hcom : 44 ∉ value := fun h => by
      have := (tokenByte_spec 44 ((httpTokenValid_iff.1 htok).2 44 h)).2.2.2.1
      exact this rfl
    have hsplit : value.splitOn 44 = [value] := splitOn_eq_singleton hcom
    refine ⟨(1, true), ?_, rfl⟩
    rw [hsplit, parseCodings, htrim, heq, if_neg]
    · rfl
    · rw [not_or, not_not]
      exact ⟨(httpTokenValid_iff.1 htok).1, htok⟩

/-- How one of the two fields is taken: not at all, or once where nothing was taken before. -/
def Takes {α : Type} (parse : Bytes → Except Http1ParseError α) (before : Option α)
    (fields : List Http1Header) (after : Option α) : Prop :=
  (fields = [] ∧ after = before) ∨
    (before = none ∧ ∃ header a, fields = [header] ∧ parse header.value = .ok a ∧ after = some a)

theorem takes_some {α : Type} {parse : Bytes → Except Http1ParseError α} {a : α}
    {after : Option α} : Takes parse (some a) fields after ↔ fields = [] ∧ after = some a := by
  simp [Takes]

theorem takes_cons {α : Type} {parse : Bytes → Except Http1ParseError α} {before after : Option α} :
    Takes parse before (header :: fields) after ↔
      before = none ∧ ∃ a, parse header.value = .ok a ∧ Takes parse (some a) fields after := by
  simp only [takes_some]
  constructor
  · rintro (⟨hnil, -⟩ | ⟨hb, header', a, hfields, hparse, ha⟩)
    · cases hnil
    · cases hfields
      exact ⟨hb, a, hparse, rfl, ha⟩
  · rintro ⟨hb, a, hparse, rfl, ha⟩
    exact Or.inr ⟨hb, header, a, rfl, hparse, ha⟩

variable (version : Http1Version)

/-- `Transfer-Encoding` is refused from a client of version 1.0. -/
def parseTransferEncodingOf (value : Bytes) : Except Http1ParseError Http1BodyFraming :=
  if version = .http10 then .error .unsupportedTransferEncoding else parseTransferEncoding value

variable {v : Http1Version}

/-- **What the loop keeps**: each of the two fields is taken apart from the other. -/
theorem bodyFramingLoop_eq_ok_iff
    {length length' : Option ℕ} {encoding encoding' : Option Http1BodyFraming} :
    bodyFramingLoop v length encoding headers = .ok (length', encoding') ↔
      Takes parseContentLength length (fieldsNamed "content-length" headers) length' ∧
        Takes (parseTransferEncodingOf v) encoding
          (fieldsNamed "transfer-encoding" headers) encoding' := by
  induction headers generalizing length encoding with
  | nil =>
    simp only [bodyFramingLoop, Except.ok.injEq, Prod.mk.injEq, fieldsNamed, filter_nil, Takes,
      reduceCtorEq, false_and, exists_false, and_false, or_false, true_and, eq_comm]
  | cons header headers ih =>
    rw [bodyFramingLoop]
    by_cases hlen : header.named "content-length" = true
    · have hother := header.not_named_of_named hlen (b := "transfer-encoding") (by decide +kernel)
      rw [if_pos hlen, fieldsNamed_cons_of_named hlen, fieldsNamed_cons_of_not_named hother,
        takes_cons, bind_eq_ok]
      constructor
      · rintro ⟨a, hparse, h⟩
        split_ifs at h with hsome
        exact ⟨⟨by simpa using hsome, a, hparse, (ih.1 h).1⟩, (ih.1 h).2⟩
      · rintro ⟨⟨rfl, a, hparse, htakes⟩, henc⟩
        exact ⟨a, hparse, ih.2 ⟨htakes, henc⟩⟩
    · rw [if_neg hlen, fieldsNamed_cons_of_not_named hlen]
      by_cases henc : header.named "transfer-encoding" = true
      · rw [if_pos henc, fieldsNamed_cons_of_named henc, takes_cons]
        constructor
        · intro h
          split_ifs at h with hver hsome
          obtain ⟨a, hparse, h⟩ := bind_eq_ok.1 h
          exact ⟨(ih.1 h).1, by simpa using hsome, a,
            by rw [parseTransferEncodingOf, if_neg hver, hparse], (ih.1 h).2⟩
        · rintro ⟨htakes, rfl, a, hparse, hrest⟩
          unfold parseTransferEncodingOf at hparse
          split_ifs at hparse with hver
          rw [if_neg hver, if_neg (by simp), bind_eq_ok]
          exact ⟨a, hparse, ih.2 ⟨htakes, hrest⟩⟩
      · rw [if_neg henc, fieldsNamed_cons_of_not_named henc]
        exact ih

/-- The headers of a chunked body. -/
def ChunkedFields (headers : List Http1Header) : Prop :=
  version = .http11 ∧
    (∃ header, fieldsNamed "transfer-encoding" headers = [header] ∧
      eqIgnoreCase header.value (ascii "chunked") = true) ∧
    fieldsNamed "content-length" headers = []

/-- The headers of a body whose length is declared to be `n`. -/
def LengthFields (n : ℕ) (headers : List Http1Header) : Prop :=
  fieldsNamed "transfer-encoding" headers = [] ∧
    ∃ header, fieldsNamed "content-length" headers = [header] ∧ LengthValue header.value n

/-- The headers of a request without a body. -/
def EmptyFields (headers : List Http1Header) : Prop :=
  (fieldsNamed "transfer-encoding" headers = [] ∧ fieldsNamed "content-length" headers = []) ∨
    LengthFields 0 headers

/-- The headers that stand for a framing. -/
def FramedAs (headers : List Http1Header) : Http1BodyFraming → Prop
  | .chunked => ChunkedFields version headers
  | .contentLength n => 0 < n ∧ LengthFields n headers
  | .noBody => EmptyFields headers

theorem takes_none_none {α : Type} {parse : Bytes → Except Http1ParseError α} :
    Takes parse none fields none ↔ fields = [] := by
  simp [Takes]

theorem takes_none_some {α : Type} {parse : Bytes → Except Http1ParseError α} {a : α} :
    Takes parse none fields (some a) ↔ ∃ header, fields = [header] ∧
      parse header.value = .ok a := by
  simp only [Takes, reduceCtorEq, and_false, true_and, false_or, Option.some.injEq]
  constructor
  · rintro ⟨header, b, hfields, hparse, rfl⟩
    exact ⟨header, hfields, hparse⟩
  · rintro ⟨header, hfields, hparse⟩
    exact ⟨header, a, hfields, hparse, rfl⟩

theorem parseTransferEncodingOf_iff :
    parseTransferEncodingOf v header.value = .ok framing ↔
      v = .http11 ∧ eqIgnoreCase header.value (ascii "chunked") = true ∧
        framing = .chunked := by
  unfold parseTransferEncodingOf
  cases v with
  | http10 => simp
  | http11 => simp [parseTransferEncoding_iff header.value_trimmed]

/-- The framing of the body, from what the loop keeps. -/
theorem http1RequestBodyFraming_eq_ok_iff :
    http1RequestBodyFraming v headers = .ok framing ↔ FramedAs v headers framing := by
  unfold http1RequestBodyFraming
  rw [bind_eq_ok]
  constructor
  · rintro ⟨⟨length, enc⟩, hloop, h⟩
    obtain ⟨hlen, henc⟩ := bodyFramingLoop_eq_ok_iff.1 hloop
    cases enc with
    | some coding =>
      obtain ⟨header, hfields, hparse⟩ := takes_none_some.1 henc
      obtain ⟨hver, hv, rfl⟩ := parseTransferEncodingOf_iff.1 hparse
      cases length with
      | some n => cases h
      | none =>
        cases h
        exact ⟨hver, ⟨header, hfields, hv⟩, takes_none_none.1 hlen⟩
    | none =>
      have hnone := takes_none_none.1 henc
      cases length with
      | none =>
        cases h
        exact Or.inl ⟨hnone, takes_none_none.1 hlen⟩
      | some n =>
        obtain ⟨header, hfields, hparse⟩ := takes_none_some.1 hlen
        have hv := (parseContentLength_iff header.value_trimmed).1 hparse
        cases n with
        | zero =>
          cases h
          exact Or.inr ⟨hnone, header, hfields, hv⟩
        | succ n =>
          cases h
          exact ⟨Nat.succ_pos n, hnone, header, hfields, hv⟩
  · intro h
    cases framing with
    | chunked =>
      obtain ⟨hver, ⟨header, hfields, hv⟩, hlen⟩ := h
      refine ⟨(none, some .chunked), bodyFramingLoop_eq_ok_iff.2 ⟨takes_none_none.2 hlen,
        takes_none_some.2 ⟨header, hfields, ?_⟩⟩, rfl⟩
      exact parseTransferEncodingOf_iff.2 ⟨hver, hv, rfl⟩
    | noBody =>
      rcases h with ⟨henc, hlen⟩ | ⟨henc, header, hfields, hv⟩
      · exact ⟨(none, none), bodyFramingLoop_eq_ok_iff.2
          ⟨takes_none_none.2 hlen, takes_none_none.2 henc⟩, rfl⟩
      · exact ⟨(some 0, none), bodyFramingLoop_eq_ok_iff.2 ⟨takes_none_some.2 ⟨header, hfields,
          (parseContentLength_iff header.value_trimmed).2 hv⟩,
          takes_none_none.2 henc⟩, rfl⟩
    | contentLength n =>
      obtain ⟨hpos, henc, header, hfields, hv⟩ := h
      obtain ⟨n, rfl⟩ : ∃ m, n = m + 1 := ⟨n - 1, by omega⟩
      exact ⟨(some (n + 1), none), bodyFramingLoop_eq_ok_iff.2 ⟨takes_none_some.2 ⟨header, hfields,
        (parseContentLength_iff header.value_trimmed).2 hv⟩,
        takes_none_none.2 henc⟩, rfl⟩

/-- The fields with a name are those of the reordered list, if there is at most one. -/
theorem fieldsNamed_perm {fields : List Http1Header}
    (h : headers.Perm headers') (hfields : fields.length ≤ 1)
    (hnamed : fieldsNamed name headers = fields) : fieldsNamed name headers' = fields := by
  have hperm : (fieldsNamed name headers).Perm (fieldsNamed name headers') := h.filter _
  rw [hnamed] at hperm
  match fields, hfields with
  | [], _ => exact hperm.symm.eq_nil
  | [header], _ => exact perm_singleton.1 hperm.symm

theorem FramedAs.perm (hperm : headers.Perm headers')
    (h : FramedAs v headers framing) : FramedAs v headers' framing := by
  have hlen : ∀ {n}, LengthFields n headers → LengthFields n headers' := by
    rintro n ⟨henc, header, hfields, hv⟩
    exact ⟨fieldsNamed_perm hperm (by simp) henc, header,
      fieldsNamed_perm hperm (by simp) hfields, hv⟩
  cases framing with
  | chunked =>
    obtain ⟨hver, ⟨header, hfields, hv⟩, hnone⟩ := h
    exact ⟨hver, ⟨header, fieldsNamed_perm hperm (by simp) hfields, hv⟩,
      fieldsNamed_perm hperm (by simp) hnone⟩
  | contentLength n => exact ⟨h.1, hlen h.2⟩
  | noBody =>
    rcases h with ⟨henc, hnone⟩ | h
    · exact Or.inl ⟨fieldsNamed_perm hperm (by simp) henc,
        fieldsNamed_perm hperm (by simp) hnone⟩
    · exact Or.inr (hlen h)

/-- **The framing of a request body.**  It is chunked exactly for one `Transfer-Encoding: chunked`
of version 1.1 without a content length, has a length exactly for one decimal `Content-Length`
without a transfer encoding, is absent exactly without both or with the length zero, and every other
list of headers is refused; reordering the headers changes at most the error. -/
theorem http1RequestBodyFraming_exact (version : Http1Version) (headers : List Http1Header) :
    (http1RequestBodyFraming version headers = .ok .chunked ↔ ChunkedFields version headers) ∧
    (∀ n, http1RequestBodyFraming version headers = .ok (.contentLength n) ↔
      0 < n ∧ LengthFields n headers) ∧
    (http1RequestBodyFraming version headers = .ok .noBody ↔ EmptyFields headers) ∧
    ((∃ e, http1RequestBodyFraming version headers = .error e) ↔
      ¬ ChunkedFields version headers ∧ (∀ n, 0 < n → ¬ LengthFields n headers) ∧
        ¬ EmptyFields headers) ∧
    (∀ headers', headers.Perm headers' →
      (http1RequestBodyFraming version headers').toOption =
        (http1RequestBodyFraming version headers).toOption) := by
  have hok : ∀ framing, http1RequestBodyFraming version headers = .ok framing ↔
      FramedAs version headers framing := fun framing => http1RequestBodyFraming_eq_ok_iff
  refine ⟨hok _, fun n => hok _, hok _, ?_, fun headers' hperm => ?_⟩
  · constructor
    · rintro ⟨e, he⟩
      refine ⟨fun h => ?_, fun n hn h => ?_, fun h => ?_⟩
      · cases he.symm.trans ((hok .chunked).2 h)
      · cases he.symm.trans ((hok (.contentLength n)).2 ⟨hn, h⟩)
      · cases he.symm.trans ((hok .noBody).2 h)
    · rintro ⟨hchunked, hlen, hempty⟩
      cases hr : http1RequestBodyFraming version headers with
      | error e => exact ⟨e, rfl⟩
      | ok framing =>
        have hframed := (hok framing).1 hr
        cases framing with
        | chunked => exact absurd hframed hchunked
        | contentLength n => exact absurd hframed.2 (hlen n hframed.1)
        | noBody => exact absurd hframed hempty
  · cases hr : http1RequestBodyFraming version headers with
    | ok framing =>
      rw [http1RequestBodyFraming_eq_ok_iff.2 (((hok framing).1 hr).perm hperm)]
    | error e =>
      cases hr' : http1RequestBodyFraming version headers' with
      | error e' => rfl
      | ok framing =>
        have hframed := (http1RequestBodyFraming_eq_ok_iff.1 hr').perm hperm.symm
        cases hr.symm.trans ((hok framing).2 hframed)

end Fluxheim
