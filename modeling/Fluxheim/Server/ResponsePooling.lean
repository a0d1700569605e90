import Fluxheim.Server.ConnectionStream
import Fluxheim.Server.ResponseFraming

/-!
# When an upstream connection is used again

A connection goes back to the pool only where the response that was read from it has been read to
its end and nothing behind it, so that what comes next on the connection is the next response.
-/

namespace Fluxheim

open Ascii Fallible Search List

theorem liftParse_eq_ok {α : Type} {x : Except Http1ParseError α} {a : α} :
    liftParse x = .ok a ↔ x = .ok a := by
  cases x <;> simp [liftParse]

variable {stream stream' : UpstreamStream} {chunk : Bytes} {fuel fuel' : ℕ}

/-- A read takes bytes off the front of the stream. -/
theorem read_eq_ok (h : stream.read = .ok (chunk, stream')) :
    stream.remaining = chunk ++ stream'.remaining := by
  have hspec := (readSocket_spec (n := UPSTREAM_READ_CHUNK_BYTES) (by decide) stream.segments).1
  unfold UpstreamStream.read at h
  dsimp only at h
  split_ifs at h with hnil
  · split at h
    · cases h
    · cases h
      rw [hnil] at hspec
      exact hspec.symm
  · cases h
    exact hspec.symm

/-- A read that returns something leaves less to come. -/
theorem remaining_lt_of_read (h : stream.read = .ok (chunk, stream')) (hchunk : chunk ≠ [])
    (hfuel : stream.remaining.length < fuel + 1) : stream'.remaining.length < fuel := by
  have hpos := length_pos_iff.2 hchunk
  rw [read_eq_ok h, length_append] at hfuel
  omega

/-- A loop whose turns each read something before the next does not depend on the number of turns it
is given, if that is more than the bytes to come. -/
theorem loop_fuel {S R : Type} {loop : ℕ → S → UpstreamStream → R} (hturn : ∀ fuel fuel' s stream,
      (∀ s chunk next, stream.read = .ok (chunk, next) → chunk ≠ [] →
        loop fuel s next = loop fuel' s next) →
      loop (fuel + 1) s stream = loop (fuel' + 1) s stream)
    (s : S) (h : stream.remaining.length < fuel) (h' : stream.remaining.length < fuel') :
    loop fuel s stream = loop fuel' s stream := by
  induction fuel generalizing fuel' s stream with
  | zero => omega
  | succ fuel ih =>
    obtain ⟨fuel', rfl⟩ : ∃ n, fuel' = n + 1 := ⟨fuel' - 1, by omega⟩
    refine hturn fuel fuel' s stream fun s chunk next hread hchunk => ?_
    exact ih s (remaining_lt_of_read hread hchunk h) (remaining_lt_of_read hread hchunk h')

theorem fillUpstreamResponseHead_fuel (limits : Http1HeadLimits) (buffer : Bytes)
    (h : stream.remaining.length < fuel) (h' : stream.remaining.length < fuel') :
    fillUpstreamResponseHead limits fuel buffer stream =
      fillUpstreamResponseHead limits fuel' buffer stream := by
  refine loop_fuel (fun fuel fuel' buffer stream hnext => ?_) buffer h h'
  rw [fillUpstreamResponseHead, fillUpstreamResponseHead]
  cases hread : stream.read with
  | error e => rfl
  | ok r =>
    by_cases hchunk : r.1 = []
    · simp only [ok_bind, hchunk, if_true]
    · simp only [ok_bind, hchunk, if_false, hnext _ r.1 r.2 hread hchunk]

theorem fillUpstreamBody_fuel (req : ℕ) (buffer : Bytes)
    (h : stream.remaining.length < fuel) (h' : stream.remaining.length < fuel') :
    fillUpstreamBody req fuel buffer stream =
      fillUpstreamBody req fuel' buffer stream := by
  refine loop_fuel (fun fuel fuel' buffer stream hnext => ?_) buffer h h'
  rw [fillUpstreamBody, fillUpstreamBody]
  cases hread : stream.read with
  | error e => rfl
  | ok r =>
    by_cases hchunk : r.1 = []
    · simp only [ok_bind, hchunk, if_true]
    · simp only [ok_bind, hchunk, if_false, hnext _ r.1 r.2 hread hchunk]

theorem readCloseDelimitedLoop_fuel (maxBodyBytes : Usize) (body : Bytes)
    (h : stream.remaining.length < fuel) (h' : stream.remaining.length < fuel') :
    readCloseDelimitedLoop maxBodyBytes fuel body stream =
      readCloseDelimitedLoop maxBodyBytes fuel' body stream := by
  refine loop_fuel (fun fuel fuel' body stream hnext => ?_) body h h'
  rw [readCloseDelimitedLoop, readCloseDelimitedLoop]
  cases hread : stream.read with
  | error e => rfl
  | ok r =>
    by_cases hchunk : r.1 = []
    · simp only [ok_bind, hchunk, if_true]
    · simp only [ok_bind, hchunk, if_false, hnext _ r.1 r.2 hread hchunk]

theorem readUpstreamChunkedLoop_fuel (decoder : Http1ChunkedDecoder) (body : Bytes)
    (h : stream.remaining.length < fuel) (h' : stream.remaining.length < fuel') :
    readUpstreamChunkedLoop fuel decoder body stream =
      readUpstreamChunkedLoop fuel' decoder body stream := by
  refine @loop_fuel stream fuel fuel' _ _ (fun fuel s => readUpstreamChunkedLoop fuel s.1 s.2)
    (fun fuel fuel' s stream hnext => ?_) (decoder, body) h h'
  rw [readUpstreamChunkedLoop, readUpstreamChunkedLoop]
  cases hread : stream.read with
  | error e => rfl
  | ok r =>
    by_cases hchunk : r.1 = []
    · simp only [ok_bind, hchunk, if_true]
    · have hgo : ∀ decoder body, readUpstreamChunkedLoop fuel decoder body r.2 =
          readUpstreamChunkedLoop fuel' decoder body r.2 :=
        fun decoder body => hnext (decoder, body) r.1 r.2 hread hchunk
      simp only [ok_bind, hchunk, if_false, hgo]

/-- Bytes that are a response head, all of them. -/
structure ResponseHeadOf (limits : Http1HeadLimits) (bytes : Bytes) (head : Http1ResponseHead) :
    Prop where
  parsed : parseHttp1ResponseHead bytes limits = .ok (some head)
  headLen_eq : head.headLen = bytes.length

variable {limits : Http1HeadLimits} {head : Http1ResponseHead} {buffer buffer' : Bytes}

/-- What is parsed as a head are the first bytes of the buffer. -/
theorem responseHeadOf_take (h : parseHttp1ResponseHead buffer limits = .ok (some head)) :
    ResponseHeadOf limits (buffer.take head.headLen) head ∧ head.headLen ≤ buffer.length ∧
      head.headLen ≤ limits.maxHeadBytes := by
  obtain ⟨found, hfound, h⟩ := bind_eq_ok.1 h
  cases found with
  | none => cases h
  | some headLen =>
    dsimp only at h
    split_ifs at h with hutf8
    obtain ⟨parsed, hparsed, h⟩ := bind_eq_ok.1 h
    cases h
    obtain ⟨i, hi, rfl, hle⟩ := completeHeadLen_eq_some_iff.1 hfound
    have hin : i + 4 ≤ buffer.length := findSub_add_length_le hi
    have hlen : head.headLen = i + 4 := by
      unfold parseResponseHeadLines at hparsed
      split at hparsed
      · cases hparsed
      · split_ifs at hparsed
        obtain ⟨line, -, hparsed⟩ := bind_eq_ok.1 hparsed
        obtain ⟨headers, -, hparsed⟩ := bind_eq_ok.1 hparsed
        cases hparsed
        rfl
    rw [hlen]
    refine ⟨⟨?_, ?_⟩, hin, hle⟩
    · have htake : completeHeadLen (buffer.take (i + 4)) limits.maxHeadBytes =
          .ok (some (i + 4)) :=
        completeHeadLen_eq_some_iff.2 ⟨i, findSub_take hi le_rfl, rfl, hle⟩
      unfold parseHttp1ResponseHead
      rw [htake, ok_bind]
      dsimp only
      rw [take_take, min_self, if_neg (not_not.2 hutf8), hparsed]
      rfl
    · rw [length_take, hlen, min_eq_left hin]

theorem parsedUpstreamResponseHead_eq_ok :
    parsedUpstreamResponseHead buffer limits = .ok head ↔
      parseHttp1ResponseHead buffer limits = .ok (some head) := by
  unfold parsedUpstreamResponseHead
  rw [bind_eq_ok]
  constructor
  · rintro ⟨found, hfound, h⟩
    rw [liftParse_eq_ok.1 hfound, okOr_eq_ok.1 h]
  · exact fun h => ⟨some head, liftParse_eq_ok.2 h, rfl⟩

theorem fillUpstreamResponseHead_eq_ok
    (h : fillUpstreamResponseHead limits fuel buffer stream = .ok (buffer', stream')) :
    buffer ++ stream.remaining = buffer' ++ stream'.remaining := by
  induction fuel generalizing buffer stream with
  | zero => cases h
  | succ fuel ih =>
    rw [fillUpstreamResponseHead] at h
    split at h
    · cases h
      rfl
    · cases h
    · by_cases hfull : buffer.length ≥ limits.maxHeadBytes
      · rw [if_pos hfull] at h
        cases h
      rw [if_neg hfull] at h
      obtain ⟨⟨chunk, next⟩, hread, h⟩ := bind_eq_ok.1 h
      dsimp only at h
      split_ifs at h
      rw [read_eq_ok hread, ← append_assoc]
      exact ih h

/-- Bytes that are the head of an informational response. -/
def Informational (limits : Http1HeadLimits) (bytes : Bytes) : Prop :=
  ∃ head, ResponseHeadOf limits bytes head ∧ head.status < 200 ∧ head.status ≠ 101

theorem readFinalHead_eq_ok {left : ℕ}
    (h : readFinalHead limits left buffer stream = .ok (buffer', stream')) :
    ∃ heads : List Bytes, (∀ bytes ∈ heads, Informational limits bytes) ∧ heads.length ≤ left ∧
      buffer ++ stream.remaining = heads.flatten ++ buffer' ++ stream'.remaining ∧
      ∃ head, parseHttp1ResponseHead buffer' limits = .ok (some head) ∧ 200 ≤ head.status := by
  induction left generalizing buffer stream with
  | zero =>
    obtain ⟨⟨filled, next⟩, hfill, h⟩ := bind_eq_ok.1 h
    obtain ⟨head, hhead, h⟩ := bind_eq_ok.1 h
    split_ifs at h with hswi hfin
    cases h
    refine ⟨[], by simp, le_rfl, ?_, head, parsedUpstreamResponseHead_eq_ok.1 hhead, hfin⟩
    exact fillUpstreamResponseHead_eq_ok hfill
  | succ left ih =>
    obtain ⟨⟨filled, next⟩, hfill, h⟩ := bind_eq_ok.1 h
    obtain ⟨head, hhead, h⟩ := bind_eq_ok.1 h
    have hparsed := parsedUpstreamResponseHead_eq_ok.1 hhead
    split_ifs at h with hswi hfin
    · cases h
      exact ⟨[], by simp, Nat.zero_le _, fillUpstreamResponseHead_eq_ok hfill, head, hparsed, hfin⟩
    · obtain ⟨heads, hall, hlen, hby, hrest⟩ := ih h
      refine ⟨filled.take head.headLen :: heads, ?_, Nat.succ_le_succ hlen, ?_, hrest⟩
      · exact forall_mem_cons.2
          ⟨⟨head, (responseHeadOf_take hparsed).1, not_le.1 hfin, hswi⟩, hall⟩
      · rw [fillUpstreamResponseHead_eq_ok hfill, flatten_cons, append_assoc, append_assoc,
          ← append_assoc heads.flatten, ← hby, ← append_assoc, take_append_drop]

/-! ### Bodies -/

variable {framing : ResponseBodyFraming} {body method : Bytes} {headLen status : ℕ}
  {maxBodyBytes : Usize}

theorem fillUpstreamBody_eq_ok {req : ℕ}
    (h : fillUpstreamBody req fuel buffer stream = .ok (buffer', stream')) :
    buffer ++ stream.remaining = buffer' ++ stream'.remaining ∧ buffer <+: buffer' ∧
      req ≤ buffer'.length := by
  induction fuel generalizing buffer stream with
  | zero => cases h
  | succ fuel ih =>
    rw [fillUpstreamBody] at h
    split_ifs at h with hshort
    · obtain ⟨⟨chunk, next⟩, hread, h⟩ := bind_eq_ok.1 h
      dsimp only at h
      split_ifs at h
      obtain ⟨hby, hpre, hlen⟩ := ih h
      rw [read_eq_ok hread, ← append_assoc]
      exact ⟨hby, (prefix_append _ _).trans hpre, hlen⟩
    · cases h
      exact ⟨rfl, prefix_rfl, not_lt.1 hshort⟩

/-- A body of known length. -/
theorem readContentLengthBody_eq_ok {length : ℕ}
    (h : readContentLengthBody stream buffer headLen length maxBodyBytes =
      .ok (body, buffer', stream')) :
    buffer ++ stream.remaining = buffer' ++ stream'.remaining ∧ buffer <+: buffer' ∧
      body = (buffer'.take (headLen + length)).drop headLen ∧ body.length = length ∧
      headLen + length ≤ usizeMax := by
  unfold readContentLengthBody at h
  split_ifs at h
  obtain ⟨req, hreq, h⟩ := bind_eq_ok.1 h
  obtain ⟨⟨filled, next⟩, hfill, h⟩ := bind_eq_ok.1 h
  cases h
  obtain ⟨hby, hpre, hlen⟩ := fillUpstreamBody_eq_ok hfill
  rw [okOr_eq_ok, checkedAdd] at hreq
  split_ifs at hreq with hfits
  cases hreq
  refine ⟨hby, hpre, rfl, ?_, hfits⟩
  rw [length_drop, length_take]
  omega

/-- What reading the body leaves, for the framings after which a connection can be used again. -/
theorem readResponseBody_eq_ok
    (h : readResponseBody stream buffer headLen framing maxBodyBytes =
      .ok (body, buffer', stream')) :
    (framing = .noBody → body = [] ∧ buffer' = buffer ∧ stream' = stream) ∧
      ∀ n, framing = .contentLength n →
        buffer ++ stream.remaining = buffer' ++ stream'.remaining ∧ buffer <+: buffer' ∧
          body = (buffer'.take (headLen + n)).drop headLen ∧ body.length = n ∧
          headLen + n ≤ usizeMax := by
  refine ⟨?_, ?_⟩
  · rintro rfl
    cases h
    exact ⟨rfl, rfl, rfl⟩
  · rintro n rfl
    exact readContentLengthBody_eq_ok h

/-- A connection can be used again where the buffer ends with the body. -/
theorem responseBodyReusable_eq_true {bodyLen : ℕ}
    (h : responseBodyReusable buffer headLen framing bodyLen status = true) :
    (framing = .noBody ∧ buffer.length = headLen) ∨
      ∃ n, framing = .contentLength n ∧ buffer.length = saturatingAdd headLen n := by
  unfold responseBodyReusable at h
  split_ifs at h
  cases framing with
  | noBody => exact .inl ⟨rfl, by simpa using h⟩
  | contentLength n =>
    simp only [Bool.and_eq_true, decide_eq_true_eq] at h
    exact .inr ⟨n, rfl, h.2⟩
  | chunked => cases h
  | closeDelimited => cases h

/-- The bytes after the head are the body, all of it and nothing else. -/
theorem drop_eq_body (hhead : head.headLen ≤ buffer.length)
    (hbody : readResponseBody stream buffer head.headLen framing maxBodyBytes =
      .ok (body, buffer', stream'))
    (hreuse : responseBodyReusable buffer' head.headLen framing body.length head.status = true) :
    (framing = .noBody ∨ ∃ n, framing = .contentLength n) ∧
      buffer ++ stream.remaining = buffer.take head.headLen ++ body ++ stream'.remaining := by
  obtain ⟨hnone, hlength⟩ := readResponseBody_eq_ok hbody
  rcases responseBodyReusable_eq_true hreuse with ⟨hframing, hlen⟩ | ⟨n, hframing, hlen⟩
  · obtain ⟨rfl, rfl, rfl⟩ := hnone hframing
    refine ⟨.inl hframing, ?_⟩
    rw [← hlen, take_length, append_nil]
  · obtain ⟨hby, ⟨rest, rfl⟩, rfl, -, hfits⟩ := hlength n hframing
    refine ⟨.inr ⟨n, hframing⟩, ?_⟩
    rw [saturatingAdd, min_eq_left hfits] at hlen
    rw [hby, ← hlen, take_length, drop_append_of_le_length hhead, ← append_assoc, take_append_drop]

variable {headers : List Http1Header} {options : List Bytes}

/-- The headers that are passed on. -/
def passedHeaders (headers : List Http1Header) (framing : ResponseBodyFraming)
    (options : List Bytes) : List (Bytes × Bytes) :=
  (headers.filter fun header => responseHeaderAllowed header.name framing options).map
    fun header => (header.name, header.value)

/-- The length that is passed on is that of the only `Content-Length`, or there is none. -/
theorem responseContentLength_passed {n : ℕ}
    (h : responseContentLength (passedHeaders headers framing options) = some n) :
    framing ≠ .chunked ∧ ∃ field ∈ fieldsNamed "content-length" headers,
      parseUnsigned u64Max (trim field.value) = some n := by
  obtain ⟨⟨name, v⟩, hfind, hv⟩ := Option.bind_eq_some_iff.1 h
  obtain ⟨header, hmem, heq⟩ := mem_map.1 (mem_of_find?_eq_some hfind)
  obtain ⟨hheader, hallow⟩ := mem_filter.1 hmem
  cases heq
  have hname : eqIgnoreCase header.name (ascii "content-length") = true := by
    simpa using find?_some hfind
  refine ⟨?_, header, mem_filter.2 ⟨hheader, hname⟩, hv⟩
  rintro rfl
  rw [responseHeaderAllowed, hname] at hallow
  simp at hallow

/-- A response with a body is written with the length of its body. -/
theorem contentLength_eq_length (hbare : bodiless status method = false)
    (hframing : responseBodyFraming status method headers = .ok framing)
    (hbody : ∀ n, framing = .contentLength n → body.length = n) :
    (responseContentLength (passedHeaders headers framing options)).getD body.length =
      body.length := by
  cases hlen : responseContentLength (passedHeaders headers framing options) with
  | none => rfl
  | some n =>
    obtain ⟨hchunked, field, hfield, hv⟩ := responseContentLength_passed hlen
    have hframed := (responseBodyFraming_eq_ok_iff hbare).1 hframing
    rw [field.value_trimmed, parseUnsigned_eq_some_iff] at hv
    cases framing with
    | noBody => cases hframed
    | chunked => exact absurd rfl hchunked
    | closeDelimited =>
      rw [hframed.2] at hfield
      cases hfield
    | contentLength m =>
      obtain ⟨only, hfields, honly⟩ := hframed.2
      rw [hfields, mem_singleton] at hfield
      subst hfield
      have hsame : n = m := by
        rw [← parseUnsigned_eq_some_iff] at hv honly
        rw [hv] at honly
        exact Option.some.inj honly
      rw [Option.getD_some, hsame, hbody m rfl]

variable {response : NativeHttp1Response}

/-- The fields of a response, as they are written. -/
def writtenFields (response : NativeHttp1Response) (close : Bool) (date : Bytes) :
    List (Bytes × Bytes) :=
  [(ascii "Date", date),
    (ascii "Content-Length", decimal (response.contentLength.getD response.body.length)),
    (ascii "Connection", if close then ascii "close" else ascii "keep-alive")] ++
    response.headers.filter fun field => !responseOwnedHeader field.1

/-- The status line of a response. -/
def statusLine (response : NativeHttp1Response) : Bytes :=
  ascii "HTTP/1.1 " ++ decimal response.status ++ ascii " " ++
    sanitizeReasonPhrase response.reason ++ crlf

theorem writeResponseHeaders_eq {fields : List (Bytes × Bytes)}
    (h : ∀ field ∈ fields, validResponseHeader field.1 field.2 = true) :
    writeResponseHeaders fields = .ok ((fields.filter fun field =>
      !responseOwnedHeader field.1).map fun field => responseLine field.1 field.2).flatten := by
  induction fields with
  | nil => rfl
  | cons field fields ih =>
    obtain ⟨name, v⟩ := field
    have hrest := ih fun field hfield => h field (mem_cons_of_mem _ hfield)
    have hval := h (name, v) mem_cons_self
    rw [writeResponseHeaders]
    cases hown : responseOwnedHeader name with
    | true =>
      rw [if_pos rfl, hrest, filter_cons_of_neg (by simp [hown])]
    | false =>
      rw [if_neg (not_not.2 hval), hrest,
        filter_cons_of_pos (by simp [hown])]
      rfl

theorem writeResponse_eq (close : Bool) (date : Bytes)
    (h : ∀ field ∈ response.headers, validResponseHeader field.1 field.2 = true) :
    writeResponse response close date = .ok (statusLine response ++
      ((writtenFields response close date).map fun field => responseLine field.1 field.2).flatten ++
      crlf ++ response.body) := by
  unfold writeResponse
  rw [writeResponseHeaders_eq h]
  simp [writtenFields, statusLine]

/-- The headers that are passed on can be written, and none of them names another framing. -/
theorem passedHeaders_valid {field : Bytes × Bytes}
    (h : field ∈ passedHeaders headers framing options) :
    validResponseHeader field.1 field.2 = true ∧
      eqIgnoreCase field.1 (ascii "transfer-encoding") = false := by
  obtain ⟨header, hmem, rfl⟩ := mem_map.1 h
  obtain ⟨-, hallow⟩ := mem_filter.1 hmem
  constructor
  · rw [validResponseHeader, header.name_token, Bool.true_and, Bool.not_eq_true', any_eq_false]
    intro b hb
    simp [header.value_clean b hb]
  · by_contra hmove
    rw [Bool.not_eq_false] at hmove
    have hhop : identifiesHopByHopHeader options header.name = true := by
      rw [identifiesHopByHopHeader, Bool.or_eq_true, any_eq_true]
      exact .inr ⟨"transfer-encoding", by decide, hmove⟩
    rw [responseHeaderAllowed, hhop] at hallow
    simp at hallow

/-- One `Content-Length` is written, and no `Transfer-Encoding`. -/
theorem writtenFields_framing (close : Bool) (date : Bytes)
    (h : ∀ field ∈ response.headers, eqIgnoreCase field.1 (ascii "transfer-encoding") = false) :
    (writtenFields response close date).filter
        (fun field => eqIgnoreCase field.1 (ascii "content-length")) =
      [(ascii "Content-Length", decimal (response.contentLength.getD response.body.length))] ∧
    (writtenFields response close date).filter
        (fun field => eqIgnoreCase field.1 (ascii "transfer-encoding")) = [] := by
  have hlength : (response.headers.filter fun field => !responseOwnedHeader field.1).filter
      (fun field => eqIgnoreCase field.1 (ascii "content-length")) = [] := by
    rw [filter_eq_nil_iff]
    intro field hfield hname
    have hown := (mem_filter.1 hfield).2
    rw [responseOwnedHeader, hname] at hown
    simp at hown
  have hmove : (response.headers.filter fun field => !responseOwnedHeader field.1).filter
      (fun field => eqIgnoreCase field.1 (ascii "transfer-encoding")) = [] := by
    rw [filter_eq_nil_iff]
    intro field hfield hname
    rw [h field (mem_filter.1 hfield).1] at hname
    cases hname
  have hnames : [ascii "Date", ascii "Content-Length", ascii "Connection"].map
      (fun name => (eqIgnoreCase name (ascii "content-length"),
        eqIgnoreCase name (ascii "transfer-encoding"))) =
      [(false, false), (true, false), (false, false)] := by decide +kernel
  simp only [map_cons, map_nil, cons.injEq, Prod.mk.injEq, and_true] at hnames
  obtain ⟨⟨hdate, hdate'⟩, ⟨hlen, hlen'⟩, hconn, hconn'⟩ := hnames
  rw [writtenFields, filter_append, filter_append, hlength, hmove]
  simp [hdate, hdate', hlen, hlen', hconn, hconn']

/-- What was read of a response. -/
theorem readUpstreamResponseInner_eq_ok {maxH maxBodyBytes : Usize} {wantReusable reusable : Bool}
    (h : readUpstreamResponseInner stream maxH maxBodyBytes method wantReusable =
      .ok (response, reusable, stream')) :
    ∃ buffer stream₁ buffer' head framing options dir,
      readFinalHead (upstreamHeadLimits maxH) MAX_INFORMATIONAL_RESPONSES [] stream =
        .ok (buffer, stream₁) ∧
      parseHttp1ResponseHead buffer (upstreamHeadLimits maxH) = .ok (some head) ∧
      responseBodyFraming head.status method head.headers = .ok framing ∧
      http1ConnectionDirective head.version head.headers = .ok dir ∧
      readResponseBody stream₁ buffer head.headLen framing maxBodyBytes =
        .ok (response.body, buffer', stream') ∧
      response.headers = passedHeaders head.headers framing options ∧
      response.contentLength =
        responseContentLength (passedHeaders head.headers framing options) ∧
      reusable = (wantReusable && dir ≠ .close &&
        responseBodyReusable buffer' head.headLen framing response.body.length head.status) := by
  obtain ⟨⟨buffer, stream₁⟩, hfin, h⟩ := bind_eq_ok.1 h
  obtain ⟨head, hhead, h⟩ := bind_eq_ok.1 h
  obtain ⟨framing, hframing, h⟩ := bind_eq_ok.1 h
  obtain ⟨options, -, h⟩ := bind_eq_ok.1 h
  obtain ⟨dir, hdir, h⟩ := bind_eq_ok.1 h
  obtain ⟨⟨body, buffer', stream₂⟩, hbody, h⟩ := bind_eq_ok.1 h
  cases h
  exact ⟨buffer, stream₁, buffer', head, framing, options, dir, hfin,
    parsedUpstreamResponseHead_eq_ok.1 hhead, liftParse_eq_ok.1 hframing,
    liftParse_eq_ok.1 hdir, hbody, rfl, rfl, rfl⟩

/-- **A connection goes back to the pool only after a response that was read to its end and nothing
behind it**: the bytes read are informational heads, the final head and the body, the response did
not ask to close, and its framing is no body or a known length.  The body has the declared length,
and **a response with a body is written with a `Content-Length` that is its size** and no other
framing. -/
theorem upstream_connection_reuse (pool pool' : NativeHttp1ConnectionPool) (stream : UpstreamStream)
    (maxHeadBytes maxBodyBytes : Usize) (method : Bytes) (response : NativeHttp1Response)
    (h : sendPooled pool stream maxHeadBytes maxBodyBytes method = .ok (response, pool')) :
    ∃ (heads : List Bytes) (headBytes : Bytes) (head : Http1ResponseHead)
      (framing : ResponseBodyFraming) (stream' : UpstreamStream),
      (∀ bytes ∈ heads, Informational (upstreamHeadLimits maxHeadBytes) bytes) ∧
      ResponseHeadOf (upstreamHeadLimits maxHeadBytes) headBytes head ∧ 200 ≤ head.status ∧
      heads.flatten ++ headBytes <+: stream.remaining ∧
      responseBodyFraming head.status method head.headers = .ok framing ∧
      (pool' ≠ pool → pool' = { pool with idle := stream' :: pool.idle } ∧
        stream.remaining = heads.flatten ++ headBytes ++ response.body ++ stream'.remaining ∧
        http1ConnectionDirective head.version head.headers = .ok .persistent ∧
        (framing = .noBody ∨ ∃ n, framing = .contentLength n)) ∧
      (∀ n, framing = .contentLength n → response.body.length = n) ∧
      (bodiless head.status method = false → ∀ close date, ∃ fields : List (Bytes × Bytes),
        writeResponse response close date = .ok (statusLine response ++
          (fields.map fun field => responseLine field.1 field.2).flatten ++ crlf ++
            response.body) ∧
        fields.filter (fun field => eqIgnoreCase field.1 (ascii "content-length")) =
          [(ascii "Content-Length", decimal response.body.length)] ∧
        fields.filter (fun field => eqIgnoreCase field.1 (ascii "transfer-encoding")) = []) := by
  obtain ⟨⟨response, reusable, stream'⟩, hread, h⟩ := bind_eq_ok.1 h
  cases h
  obtain ⟨buffer, stream₁, buffer', head, framing, options, directive, hfin, hhead, hframing,
    hdir, hbody, hheaders, hlen, hreuse⟩ := readUpstreamResponseInner_eq_ok hread
  obtain ⟨heads, hall, -, hby, head', hhead', hstatus⟩ := readFinalHead_eq_ok hfin
  rw [hhead] at hhead'
  cases hhead'
  obtain ⟨hof, hin, -⟩ := responseHeadOf_take hhead
  have hdecl : ∀ n, framing = .contentLength n → response.body.length = n :=
    fun n hn => ((readResponseBody_eq_ok hbody).2 n hn).2.2.2.1
  have hpass : ∀ field ∈ response.headers, validResponseHeader field.1 field.2 = true ∧
      eqIgnoreCase field.1 (ascii "transfer-encoding") = false := by
    rw [hheaders]
    exact fun field hfield => passedHeaders_valid hfield
  refine ⟨heads, buffer.take head.headLen, head, framing, stream', hall, hof, hstatus, ?_, hframing,
    ?_, hdecl, ?_⟩
  · refine ⟨buffer.drop head.headLen ++ stream₁.remaining, ?_⟩
    rw [nil_append] at hby
    rw [hby, append_assoc, ← append_assoc (buffer.take _), take_append_drop, append_assoc]
  · intro hchanged
    cases hr : reusable with
    | false =>
      rw [hr] at hchanged
      exact absurd rfl hchanged
    | true =>
      rw [hr] at hchanged hreuse
      simp only [true_and, Bool.true_eq, Bool.and_eq_true, decide_eq_true_eq] at hreuse
      have hper : directive = .persistent := by
        cases directive with
        | close => exact absurd rfl hreuse.1
        | persistent => rfl
      obtain ⟨hkind, hrest⟩ := drop_eq_body hin hbody hreuse.2
      rw [if_pos rfl] at hchanged ⊢
      unfold NativeHttp1ConnectionPool.returnConnection at hchanged ⊢
      split_ifs at hchanged ⊢
      · refine ⟨rfl, ?_, hper ▸ hdir, hkind⟩
        rw [nil_append] at hby
        rw [hby, append_assoc, hrest]
        simp only [append_assoc]
      · exact absurd rfl hchanged
  · intro hbare close date
    refine ⟨writtenFields response close date,
      writeResponse_eq close date fun field hfield => (hpass field hfield).1, ?_⟩
    have hwritten := writtenFields_framing close date fun field hfield => (hpass field hfield).2
    rw [hlen, contentLength_eq_length hbare hframing hdecl] at hwritten
    exact hwritten

/-- An informational response and a response of two bytes, in one segment. -/
def twoHeads : UpstreamStream where
  segments := [ascii ("HTTP/1.1 103 Early Hints\r\n\r\n" ++
    "HTTP/1.1 200 OK\r\nContent-Length: 2\r\n\r\nhi")]
  failure := none

theorem upstream_connection_reuse_twoHeads :
    ∃ response pool, sendPooled ⟨[], 1⟩ twoHeads 65536 65536 (ascii "GET") = .ok (response, pool) ∧
      pool = ⟨[⟨[[]], none⟩], 1⟩ ∧ ∃ heads headBytes : Bytes,
        twoHeads.remaining = heads ++ headBytes ++ response.body := by
  have hsend : sendPooled ⟨[], 1⟩ twoHeads 65536 65536 (ascii "GET") =
      .ok (⟨200, ascii "OK", [(ascii "Content-Length", ascii "2")], some 2, ascii "hi"⟩,
        ⟨[⟨[[]], none⟩], 1⟩) := by
    decide +kernel
  obtain ⟨heads, headBytes, head, framing, stream', -, -, -, -, -, hreuse, -⟩ :=
    upstream_connection_reuse _ _ _ _ _ _ _ hsend
  obtain ⟨hpool, hby, -⟩ := hreuse (by decide)
  cases hpool
  refine ⟨_, _, hsend, rfl, heads.flatten, headBytes, ?_⟩
  simpa [UpstreamStream.remaining] using hby

end Fluxheim
