import Fluxheim.Http1.Framing
import Fluxheim.Http1.HeadGrammar
import Fluxheim.Server.UpstreamRequest

/-!
# What an upstream reads

A request written to an upstream is read there as one request, and as the one that was meant: with
the same method and target, one host, the length of the body and then the body, and no field of the
client that is not end to end.
-/

namespace Fluxheim

open Ascii Fallible Search List

variable (request : NativeHttp1Request)

/-- A header is passed on to the upstream. -/
def passedOn (name : Bytes) : Bool :=
  !(upstreamHopByHopHeader name (connectionTokens request) ||
    upstreamOwnedHeaderForRequest name request)

/-- The fields of the client that are passed on. -/
def clientFields (attemptTraceparent : Option Bytes) : List (Bytes × Bytes) :=
  (request.headers.filter fun header => passedOn request header.1).map fun header =>
    (header.1, upstreamHeaderValue attemptTraceparent header.1 header.2)

/-- The value of the `Via` field. -/
def upstreamVia : Bytes :=
  appendFluxheimViaValue ((ascii ", ").intercalate ((request.headers.filter fun header =>
    nameIs header.1 "via" && validUpstreamRequestHeader header.1 header.2).map Prod.snd))

/-- The length of the body, if there is one. -/
def lengthFields (body : Bytes) : List (Bytes × Bytes) :=
  if body ≠ [] then [(ascii "content-length", decimal body.length)] else []

/-- The option of the `Connection` field. -/
def connectionOption (keepAlive : Bool) : Bytes :=
  if keepAlive then ascii "keep-alive" else ascii "close"

/-- The fields of the request to the upstream. -/
def upstreamFields (host : Bytes) (request : NativeHttp1Request) (keepAlive : Bool)
    (attemptTraceparent : Option Bytes) : List (Bytes × Bytes) :=
  (ascii "host", host) :: (ascii "connection", connectionOption keepAlive) ::
    (lengthFields request.body ++ clientFields request attemptTraceparent ++
      [(ascii "via", upstreamVia request)])

/-- A field as it is written, with a space before the value. -/
def spaced (field : Bytes × Bytes) : Bytes × Bytes := (field.1, 32 :: field.2)

theorem headerLine_eq (name v : Bytes) :
    headerLine name v = writeField (spaced (name, v)) ++ crlf := by
  have hcolon : ascii ": " = [58, 32] := rfl
  simp [headerLine, writeField, spaced, hcolon]

/-- The lines of fields as they are written. -/
def fieldLines (fields : List (Bytes × Bytes)) : Bytes :=
  (fields.map fun field => writeField (spaced field) ++ crlf).flatten

theorem fieldLines_cons (field : Bytes × Bytes) (fields : List (Bytes × Bytes)) :
    fieldLines (field :: fields) = headerLine field.1 field.2 ++ fieldLines fields := by
  rw [headerLine_eq]
  rfl

theorem fieldLines_append (fields fields' : List (Bytes × Bytes)) :
    fieldLines (fields ++ fields') = fieldLines fields ++ fieldLines fields' := by
  simp [fieldLines]

variable {request} {attemptTraceparent query : Option Bytes}
  {out v host method target raw path : Bytes}

theorem writeClientHeaders_eq_ok {headers : List (Bytes × Bytes)}
    (h : writeClientHeaders request attemptTraceparent (connectionTokens request) headers =
      .ok out) :
    let fields := (headers.filter fun header => passedOn request header.1).map fun header =>
      (header.1, upstreamHeaderValue attemptTraceparent header.1 header.2)
    out = fieldLines fields ∧
      ∀ field ∈ fields, validUpstreamRequestHeader field.1 field.2 = true := by
  induction headers generalizing out with
  | nil =>
    cases h
    exact ⟨rfl, by simp⟩
  | cons header headers ih =>
    obtain ⟨name, v⟩ := header
    unfold writeClientHeaders at h
    have hskip : (upstreamHopByHopHeader name (connectionTokens request) ||
        upstreamOwnedHeaderForRequest name request) = !passedOn request name := by
      rw [passedOn, Bool.not_not]
    rw [hskip] at h
    by_cases hpass : passedOn request name = true
    · rw [if_neg (by simp [hpass])] at h
      rw [filter_cons_of_pos (by exact hpass)]
      by_cases hval : validUpstreamRequestHeader name
          (upstreamHeaderValue attemptTraceparent name v) = true
      · rw [if_neg (not_not.2 hval)] at h
        obtain ⟨rest, hrest, h⟩ := bind_eq_ok.1 h
        cases h
        obtain ⟨rfl, hall⟩ := ih hrest
        refine ⟨?_, ?_⟩
        · rw [map_cons, fieldLines_cons]
        · rw [map_cons, forall_mem_cons]
          exact ⟨hval, hall⟩
      · rw [if_pos hval] at h
        cases h
    · rw [if_pos (by simp [hpass])] at h
      rw [filter_cons_of_neg (by exact hpass)]
      exact ih h

variable {fields : List (Bytes × Bytes)} {authority : Bytes}

variable {keepAlive : Bool}

/-- **What is written is a head and the body.** -/
theorem writeUpstreamRequest_eq_ok
    (h : writeUpstreamRequest authority request keepAlive attemptTraceparent = .ok out) :
    ∃ target host, upstreamOriginTarget request = .ok target ∧
      host = (requestHost request).getD authority ∧
      out = writeHead request.method target .http11
        ((upstreamFields host request keepAlive attemptTraceparent).map spaced) ++ request.body ∧
      ∀ field ∈ clientFields request attemptTraceparent,
        validUpstreamRequestHeader field.1 field.2 = true := by
  obtain ⟨target, htarget, h⟩ := bind_eq_ok.1 h
  obtain ⟨host, hhost, h⟩ := bind_eq_ok.1 h
  obtain ⟨client, hclient, h⟩ := bind_eq_ok.1 h
  cases h
  obtain ⟨rfl, hval⟩ := writeClientHeaders_eq_ok hclient
  unfold validRequestHost at hhost
  dsimp only at hhost
  split_ifs at hhost
  cases hhost
  refine ⟨target, _, htarget, rfl, ?_, hval⟩
  have hconn : (if keepAlive = true then headerLine (ascii "connection") (ascii "keep-alive")
      else headerLine (ascii "connection") (ascii "close")) =
        headerLine (ascii "connection") (connectionOption keepAlive) := by
    cases keepAlive <;> rfl
  have hlen : (if request.body ≠ [] then
      headerLine (ascii "content-length") (decimal request.body.length) else []) =
        fieldLines (lengthFields request.body) := by
    unfold lengthFields
    split_ifs
    · rw [fieldLines_cons]
      simp [fieldLines]
    · rfl
  have hline : ∀ fields : List (Bytes × Bytes),
      ((fields.map spaced).map fun field => writeField field ++ crlf).flatten =
      fieldLines fields := by
    intro fields
    simp [fieldLines, Function.comp_def]
  have hreq : request.method ++ ascii " " ++ target ++ ascii " HTTP/1.1" =
      writeRequestLine request.method target .http11 := by
    simp only [writeRequestLine, append_assoc]
    rfl
  have hvia : writeOwnedProxyHeaders request =
      fieldLines [(ascii "via", upstreamVia request)] := by
    exact (append_nil _).symm
  rw [writeHead, hline, upstreamFields, fieldLines_cons, fieldLines_cons, fieldLines_append,
    fieldLines_append, hconn, hlen, hreq, hvia]
  simp only [clientFields, append_assoc]

/-- A field whose name is a token and whose value has no forbidden byte. -/
def GoodField (field : Bytes × Bytes) : Prop :=
  httpTokenValid field.1 = true ∧ ∀ b ∈ field.2, headerValueForbidden b = false

theorem validUpstreamHeaderValue_iff :
    validUpstreamHeaderValue v = true ↔ ∀ b ∈ v, headerValueForbidden b = false := by
  simp [validUpstreamHeaderValue]

theorem validUpstreamRequestHeader_iff {name : Bytes} :
    validUpstreamRequestHeader name v = true ↔ GoodField (name, v) := by
  rw [validUpstreamRequestHeader, Bool.and_eq_true, validUpstreamHeaderValue_iff]
  rfl

/-- The bytes of an authority or of a number are clean, and none is a space. -/
theorem plain_byte : ∀ b : UInt8, authorityForbidden b = false ∨ isDigit b = true →
    headerValueForbidden b = false ∧ isSpace b = false := by
  apply forall_byte
  decide +kernel

/-- A value that is read back as it is. -/
abbrev Plain (value : Bytes) : Prop :=
  (∀ b ∈ value, headerValueForbidden b = false) ∧ trim value = value

theorem plain_of_bytes (h : ∀ b ∈ v, authorityForbidden b = false ∨ isDigit b = true) : Plain v :=
  ⟨fun b hb => (plain_byte b (h b hb)).1,
    trim_of_not_isSpace fun b hb => (plain_byte b (h b hb)).2⟩

theorem plain_of_authority (h : validateHttp1Authority authority = .ok ()) : Plain authority :=
  plain_of_bytes fun b hb => Or.inl ((validateHttp1Authority_bytes h).2 b hb)

theorem plain_decimal (n : ℕ) : Plain (decimal n) :=
  plain_of_bytes fun b hb => Or.inr (all_eq_true.1 (decimal_all_isDigit n) b hb)

/-- Values joined by a clean separator are clean. -/
theorem clean_intercalate {sep : Bytes} {vs : List Bytes}
    (hs : ∀ b ∈ sep, headerValueForbidden b = false)
    (h : ∀ v ∈ vs, ∀ b ∈ v, headerValueForbidden b = false) :
    ∀ b ∈ sep.intercalate vs, headerValueForbidden b = false := by
  intro b hb
  rcases mem_of_mem_intercalate hb with hb | ⟨v, hv, hb⟩
  · exact hs b hb
  · exact h v hv b hb

theorem clean_upstreamVia (request : NativeHttp1Request) :
    ∀ b ∈ upstreamVia request, headerValueForbidden b = false := by
  have hown : ∀ b ∈ FLUXHEIM_VIA_VALUE, headerValueForbidden b = false := by decide +kernel
  have hcom : ∀ b ∈ ascii ", ", headerValueForbidden b = false := by decide +kernel
  have hvalues : ∀ b ∈ (ascii ", ").intercalate ((request.headers.filter fun header =>
      nameIs header.1 "via" && validUpstreamRequestHeader header.1 header.2).map Prod.snd),
      headerValueForbidden b = false := by
    refine clean_intercalate hcom fun v hv => ?_
    obtain ⟨header, hheader, rfl⟩ := mem_map.1 hv
    have hval := (mem_filter.1 hheader).2
    rw [Bool.and_eq_true] at hval
    exact (validUpstreamRequestHeader_iff.1 hval.2).2
  intro b hb
  unfold upstreamVia appendFluxheimViaValue at hb
  split_ifs at hb
  · exact hown b hb
  · rcases mem_append.1 hb with hb | hb
    · rcases mem_append.1 hb with hb | hb
      · exact hvalues b (mem_of_mem_trim hb)
      · exact hcom b hb
    · exact hown b hb

/-- Every field that is written is good. -/
theorem upstreamFields_good (hhost : validateHttp1Authority host = .ok ())
    (hclient : ∀ field ∈ clientFields request attemptTraceparent,
      validUpstreamRequestHeader field.1 field.2 = true) :
    ∀ field ∈ upstreamFields host request keepAlive attemptTraceparent, GoodField field := by
  intro field hfield
  simp only [upstreamFields, mem_cons, mem_append, not_mem_nil, or_false] at hfield
  rcases hfield with rfl | rfl | (hfield | hfield) | rfl
  · exact ⟨rfl, (plain_of_authority hhost).1⟩
  · refine ⟨rfl, ?_⟩
    cases keepAlive <;> decide +kernel
  · unfold lengthFields at hfield
    split_ifs at hfield
    · rw [mem_singleton] at hfield
      subst hfield
      exact ⟨rfl, (plain_decimal _).1⟩
    · cases hfield
  · exact validUpstreamRequestHeader_iff.1 (hclient field hfield)
  · exact ⟨rfl, clean_upstreamVia request⟩

/-- The limits leave room for a head of `n` bytes, however it is cut into lines. -/
structure HeadRoom (limits : Http1HeadLimits) (n : ℕ) : Prop where
  head : n ≤ limits.maxHeadBytes
  count : n ≤ limits.maxHeaderCount
  line : n ≤ limits.maxHeaderLineBytes
  start : n ≤ limits.maxStartLineBytes

/-- Good fields are read back, one header for each. -/
theorem exists_headers {limits : Http1HeadLimits} (hgood : ∀ field ∈ fields, GoodField field)
    (hline : ∀ field ∈ fields, (writeField (spaced field)).length ≤ limits.maxHeaderLineBytes) :
    ∃ headers, List.Forall₂ (FieldOf limits) (fields.map spaced) headers ∧
      headers.map Http1Header.field = fields.map fun field => (field.1, trim field.2) := by
  induction fields with
  | nil => exact ⟨[], .nil, rfl⟩
  | cons field fields ih =>
    rw [forall_mem_cons] at hgood hline
    obtain ⟨headers, hall, hmap⟩ := ih hgood.2 hline.2
    obtain ⟨htok, hclean⟩ := hgood.1
    have hspaced : ∀ b ∈ (spaced field).2, headerValueForbidden b = false := by
      rw [spaced, forall_mem_cons]
      exact ⟨rfl, hclean⟩
    refine ⟨⟨field.1, trim field.2, htok, fun b hb => hclean b (mem_of_mem_trim hb),
      trim_trim _⟩ :: headers, .cons ⟨rfl, (trim_space_cons _).symm, hspaced, hline.1⟩ hall, ?_⟩
    rw [map_cons, hmap]
    rfl

/-- **A head with good fields is read back**, whatever follows it. -/
theorem parseHttp1RequestHeadRaw_writeHead {limits : Http1HeadLimits}
    (rest : Bytes) (hmet : httpTokenValid method = true)
    (htarget : ∃ t, http1RequestTarget method target = .ok t)
    (hgood : ∀ field ∈ fields, GoodField field)
    (hroom : HeadRoom limits (writeHead method target .http11 (fields.map spaced)).length) :
    ∃ headers, headers.map Http1Header.field = fields.map (fun field => (field.1, trim field.2)) ∧
      parseHttp1RequestHeadRaw (writeHead method target .http11 (fields.map spaced) ++ rest)
        limits = .ok (some ⟨method, target, .http11, headers,
          (writeHead method target .http11 (fields.map spaced)).length⟩) := by
  have hlength := length_writeHead method target .http11 (fields.map spaced)
  have hline : ∀ field ∈ fields, (writeField (spaced field)).length ≤
      limits.maxHeaderLineBytes := by
    intro field hfield
    have hle := single_le_sum (fun _ _ => Nat.zero_le _) ((writeField (spaced field)).length + 2)
      (mem_map.2 ⟨spaced field, mem_map.2 ⟨field, hfield, rfl⟩, rfl⟩ :
        _ ∈ (fields.map spaced).map fun field => (writeField field).length + 2)
    have := hroom.line
    omega
  obtain ⟨headers, hall, hmap⟩ := exists_headers hgood hline
  have hcount : headers.length ≤ limits.maxHeaderCount := by
    have hsum := length_le_sum_of_one_le
      ((fields.map spaced).map fun field => (writeField field).length + 2) (by
        intro n hn
        obtain ⟨field, -, rfl⟩ := mem_map.1 hn
        omega)
    have hlen := hall.length_eq
    have := hroom.count
    rw [length_map] at hsum
    omega
  have hstart := hroom.start
  refine ⟨headers, hmap, parseHttp1RequestHeadRaw_iff.2 ⟨fields.map spaced,
    ⟨hmet, htarget, ?_, hall, hcount, hroom.head⟩, prefix_append _ _, rfl⟩⟩
  show (writeRequestLine method target .http11).length ≤ limits.maxStartLineBytes
  omega

variable {headers : List Http1Header}

/-- Names are equal in any case as much as their fields are. -/
theorem fieldsNamed_map_field
    (h : headers.map Http1Header.field = fields.map fun field => (field.1, trim field.2))
    (name : String) :
    (fieldsNamed name headers).map Http1Header.field =
      (fields.filter fun field => nameIs field.1 name).map fun field =>
      (field.1, trim field.2) := by
  calc (fieldsNamed name headers).map Http1Header.field
      = (headers.map Http1Header.field).filter fun field => nameIs field.1 name := by
        rw [filter_map]
        rfl
    _ = (fields.map fun field => (field.1, trim field.2)).filter fun field =>
          nameIs field.1 name := by rw [h]
    _ = _ := by
        rw [filter_map]
        rfl

/-- The names that no field of the client has when it is passed on. -/
def blockedNames : List String :=
  HOP_BY_HOP_REQUEST_HEADERS ++ ["host", "content-length", "transfer-encoding", "via"]

section

theorem passedOn_of_mem {field : Bytes × Bytes}
    (h : field ∈ clientFields request attemptTraceparent) : passedOn request field.1 = true := by
  obtain ⟨header, hheader, rfl⟩ := mem_map.1 h
  exact (mem_filter.1 hheader).2

theorem not_nameIs_of_passedOn {name : Bytes} (h : passedOn request name = true) {blocked : String}
    (hblocked : blocked ∈ blockedNames) : nameIs name blocked = false := by
  by_contra hname
  rw [Bool.not_eq_false] at hname
  have hown : upstreamHopByHopHeader name (connectionTokens request) = true ∨
      upstreamOwnedHeaderForRequest name request = true := by
    rcases mem_append.1 hblocked with hblocked | hblocked
    · left
      rw [upstreamHopByHopHeader, Bool.or_eq_true, any_eq_true]
      exact Or.inl ⟨blocked, hblocked, hname⟩
    · right
      simp only [mem_cons, not_mem_nil, or_false] at hblocked
      rw [upstreamOwnedHeaderForRequest, upstreamOwnedHeader]
      rcases hblocked with rfl | rfl | rfl | rfl <;> simp [hname]
  rw [passedOn, Bool.not_eq_true', Bool.or_eq_false_iff] at h
  rcases hown with hown | hown
  · rw [h.1] at hown
    cases hown
  · rw [h.2] at hown
    cases hown

/-- The fields that a choice keeps. -/
def onlyIf (choice : Bool) (fields : List (Bytes × Bytes)) : List (Bytes × Bytes) :=
  if choice then fields else []

theorem filter_onlyIf (name : String) (field : Bytes × Bytes) :
    [field].filter (fun field => nameIs field.1 name) = onlyIf (nameIs field.1 name) [field] := by
  unfold onlyIf
  split_ifs with h <;> simp [h]

/-- **The fields of a blocked name** are those that the proxy writes itself. -/
theorem upstreamFields_named {name : String} (hname : name ∈ blockedNames) :
    (upstreamFields host request keepAlive attemptTraceparent).filter
        (fun field => nameIs field.1 name) =
      onlyIf (nameIs (ascii "host") name) [(ascii "host", host)] ++
        onlyIf (nameIs (ascii "connection") name)
          [(ascii "connection", connectionOption keepAlive)] ++
        onlyIf (nameIs (ascii "content-length") name) (lengthFields request.body) ++
        onlyIf (nameIs (ascii "via") name) [(ascii "via", upstreamVia request)] := by
  have hclient : (clientFields request attemptTraceparent).filter
      (fun field => nameIs field.1 name) = [] := by
    rw [filter_eq_nil_iff]
    intro field hfield
    rw [not_nameIs_of_passedOn (passedOn_of_mem hfield) hname]
    decide
  have hlen : (lengthFields request.body).filter (fun field => nameIs field.1 name) =
      onlyIf (nameIs (ascii "content-length") name) (lengthFields request.body) := by
    unfold lengthFields
    split_ifs
    · exact filter_onlyIf name _
    · unfold onlyIf
      split_ifs <;> rfl
  have hfields : upstreamFields host request keepAlive attemptTraceparent =
      [(ascii "host", host)] ++ [(ascii "connection", connectionOption keepAlive)] ++
        lengthFields request.body ++ clientFields request attemptTraceparent ++
        [(ascii "via", upstreamVia request)] := by simp [upstreamFields]
  rw [hfields, filter_append, filter_append, filter_append, filter_append,
    hclient, hlen, filter_onlyIf, filter_onlyIf, filter_onlyIf, append_nil]

/-- The headers that an upstream reads are those of the fields, with trimmed values. -/
def ReadAs (headers : List Http1Header) (fields : List (Bytes × Bytes)) : Prop :=
  headers.map Http1Header.field = fields.map fun field => (field.1, trim field.2)

variable (h : ReadAs headers (upstreamFields host request keepAlive attemptTraceparent))

include h

theorem upstream_host (hhost : validateHttp1Authority host = .ok ()) :
    (fieldsNamed "host" headers).map Http1Header.field = [(ascii "host", host)] := by
  rw [fieldsNamed_map_field h, upstreamFields_named (by decide)]
  show [(ascii "host", trim host)] = _
  rw [(plain_of_authority hhost).2]

theorem upstream_connection :
    (fieldsNamed "connection" headers).map Http1Header.field =
      [(ascii "connection", connectionOption keepAlive)] := by
  rw [fieldsNamed_map_field h, upstreamFields_named (by decide)]
  cases keepAlive <;> rfl

theorem upstream_contentLength :
    (fieldsNamed "content-length" headers).map Http1Header.field = lengthFields request.body := by
  rw [fieldsNamed_map_field h, upstreamFields_named (by decide)]
  show (lengthFields request.body ++ []).map
    (fun field : Bytes × Bytes => (field.1, trim field.2)) = _
  rw [append_nil]
  unfold lengthFields
  split_ifs
  · rw [map_singleton, (plain_decimal _).2]
  · rfl

theorem upstream_transferEncoding : fieldsNamed "transfer-encoding" headers = [] := by
  have hnone : (fieldsNamed "transfer-encoding" headers).map Http1Header.field = [] := by
    rw [fieldsNamed_map_field h, upstreamFields_named (by decide)]
    rfl
  exact map_eq_nil_iff.1 hnone

/-- The framing that the upstream reads is that of the body. -/
theorem upstream_framing (hbody : request.body.length ≤ u64Max) :
    http1RequestBodyFraming .http11 headers =
      .ok (if request.body = [] then .noBody else .contentLength request.body.length) := by
  have hlen := upstream_contentLength h
  have henc := upstream_transferEncoding h
  rw [http1RequestBodyFraming_eq_ok_iff]
  unfold lengthFields at hlen
  by_cases hempty : request.body = []
  · rw [if_pos hempty]
    rw [if_neg (not_not.2 hempty)] at hlen
    exact Or.inl ⟨henc, map_eq_nil_iff.1 hlen⟩
  · rw [if_neg hempty]
    rw [if_pos hempty] at hlen
    obtain ⟨header, hheader, hfield⟩ := map_eq_singleton_iff.1 hlen
    have hv : header.value = decimal request.body.length := congrArg Prod.snd hfield
    refine ⟨length_pos_iff.2 hempty, henc, header, hheader, ?_⟩
    rw [hv]
    exact ⟨decimal_ne_nil _, all_eq_true.1 (decimal_all_isDigit _), decimalValue_decimal _,
      hbody⟩

end

/-! ### Validation -/

variable {header : Http1Header}

theorem named_of_one {name : String}
    (h : fieldsNamed name headers = [header]) : header.named name = true := by
  have hmem : header ∈ fieldsNamed name headers := by simp [h]
  obtain ⟨-, hname⟩ := mem_filter.1 hmem
  exact hname

theorem optionalHostLoop_fieldsNamed (host : Option Bytes) (headers : List Http1Header) :
    optionalHostLoop host headers = optionalHostLoop host (fieldsNamed "host" headers) := by
  induction headers generalizing host with
  | nil => rfl
  | cons header headers ih =>
    by_cases hname : header.named "host" = true
    · rw [fieldsNamed_cons_of_named hname, optionalHostLoop, optionalHostLoop]
      simp only [ih]
    · rw [fieldsNamed_cons_of_not_named hname, optionalHostLoop, if_neg hname, ih]

theorem http1OptionalHost_of_one (h : fieldsNamed "host" headers = [header])
    (hval : validateHttp1Authority header.value = .ok ()) :
    http1OptionalHost headers = .ok (some header.value) := by
  rw [http1OptionalHost, optionalHostLoop_fieldsNamed, h, optionalHostLoop,
    if_pos (named_of_one h), header.value_trimmed, hval]
  rfl

/-- A host that is read is a valid authority. -/
theorem valid_of_optionalHostLoop {host : Option Bytes} {x : Bytes}
    (h : optionalHostLoop host headers = .ok (some x)) :
    host = some x ∨ validateHttp1Authority x = .ok () := by
  induction headers generalizing host with
  | nil =>
    cases h
    exact Or.inl rfl
  | cons header headers ih =>
    rw [optionalHostLoop] at h
    by_cases hname : header.named "host" = true
    · split_ifs at h with hsome
      cases hval : validateHttp1Authority (trim header.value) with
      | error e =>
        rw [hval] at h
        cases h
      | ok u =>
        rw [hval] at h
        rcases ih h with hx | hx
        · cases hx
          exact Or.inr hval
        · exact Or.inr hx
    · rw [if_neg hname] at h
      exact ih h

theorem http1ConnectionOptions_fieldsNamed (headers : List Http1Header) :
    http1ConnectionOptions headers = http1ConnectionOptions (fieldsNamed "connection" headers) := by
  induction headers with
  | nil => rfl
  | cons header headers ih =>
    by_cases hname : header.named "connection" = true
    · rw [fieldsNamed_cons_of_named hname, http1ConnectionOptions, http1ConnectionOptions, ih]
    · rw [fieldsNamed_cons_of_not_named hname, http1ConnectionOptions, if_neg hname, ih]

theorem http1ConnectionOptions_of_one
    {options : List Bytes} (h : fieldsNamed "connection" headers = [header])
    (hopts : connectionFieldOptions (header.value.splitOn 44) = .ok options) :
    http1ConnectionOptions headers = .ok options := by
  rw [http1ConnectionOptions_fieldsNamed, h, http1ConnectionOptions, if_pos (named_of_one h), hopts]
  exact congrArg Except.ok (append_nil _)

variable (head : RawHttp1RequestHead)

/-- The effective authority of a head, which one of HTTP/1.0 need not have. -/
def RawHttp1RequestHead.optionalAuthority : Except Http1ParseError (Option Bytes) :=
  match head.effectiveAuthority with
  | .ok authority => .ok (some authority)
  | .error .missingHost => if head.version = .http10 then .ok none else .error .missingHost
  | .error e => .error e

/-- Validation after the check of the host. -/
def RawHttp1RequestHead.validateParts : Except Http1ParseError Http1RequestValidation := do
  let requestTarget ← http1RequestTarget head.method head.target
  let effectiveAuthority ← head.optionalAuthority
  let bodyFraming ← http1RequestBodyFraming head.version head.headers
  let connectionDirective ← http1ConnectionDirective head.version head.headers
  .ok ⟨requestTarget, bodyFraming, connectionDirective, effectiveAuthority⟩

theorem validateMessage_eq :
    head.validateMessage =
      if head.version = .http11 then http1RequiredHost head.headers >>= fun _ => head.validateParts
      else head.validateParts := by
  unfold RawHttp1RequestHead.validateMessage RawHttp1RequestHead.validateParts
    RawHttp1RequestHead.optionalAuthority
  -- the source goes on within the cases of the authority
  rcases head.effectiveAuthority with e | authority
  · cases e
    case missingHost => by_cases hver : head.version = .http10 <;> simp [hver]
    all_goals rfl
  · rfl

variable {validation : Http1RequestValidation}

/-- **What validation checks**, part by part. -/
theorem validateMessage_eq_ok_iff {head : RawHttp1RequestHead} :
    head.validateMessage = .ok validation ↔
      (head.version = .http11 → ∃ host, http1RequiredHost head.headers = .ok host) ∧
      http1RequestTarget head.method head.target = .ok validation.requestTarget ∧
      head.optionalAuthority = .ok validation.effectiveAuthority ∧
      http1RequestBodyFraming head.version head.headers = .ok validation.bodyFraming ∧
      http1ConnectionDirective head.version head.headers = .ok validation.connectionDirective := by
  have hpart : head.validateParts = .ok validation ↔
      http1RequestTarget head.method head.target = .ok validation.requestTarget ∧
      head.optionalAuthority = .ok validation.effectiveAuthority ∧
      http1RequestBodyFraming head.version head.headers = .ok validation.bodyFraming ∧
      http1ConnectionDirective head.version head.headers = .ok validation.connectionDirective := by
    unfold RawHttp1RequestHead.validateParts
    constructor
    · intro h
      obtain ⟨target, htarget, h⟩ := bind_eq_ok.1 h
      obtain ⟨authority, hauth, h⟩ := bind_eq_ok.1 h
      obtain ⟨framing, hframing, h⟩ := bind_eq_ok.1 h
      obtain ⟨dir, hdir, h⟩ := bind_eq_ok.1 h
      cases h
      exact ⟨htarget, hauth, hframing, hdir⟩
    · rintro ⟨htarget, hauth, hframing, hdir⟩
      rw [htarget, ok_bind, hauth, ok_bind, hframing, ok_bind, hdir, ok_bind]
  rw [validateMessage_eq]
  by_cases hver : head.version = .http11
  · rw [if_pos hver, bind_eq_ok]
    constructor
    · rintro ⟨host, hhost, h⟩
      exact ⟨fun _ => ⟨host, hhost⟩, hpart.1 h⟩
    · rintro ⟨hhost, h⟩
      obtain ⟨host, hhost⟩ := hhost hver
      exact ⟨host, hhost, hpart.2 h⟩
  · rw [if_neg hver, hpart]
    exact ⟨fun h => ⟨fun hv => absurd hv hver, h⟩, fun h => h.2⟩

/-- What was validated of a head with a target in origin form. -/
theorem validateMessage_origin {head : RawHttp1RequestHead}
    (h : head.validateMessage = .ok validation)
    (horigin : validation.requestTarget = .origin raw path query) :
    http1RequestTarget head.method head.target = .ok (.origin raw path query) ∧
      ∀ authority, validation.effectiveAuthority = some authority →
        validateHttp1Authority authority = .ok () := by
  obtain ⟨-, htarget, hauth, -, -⟩ := validateMessage_eq_ok_iff.1 h
  rw [horigin] at htarget
  refine ⟨htarget, fun authority heq => ?_⟩
  rw [heq] at hauth
  unfold RawHttp1RequestHead.optionalAuthority at hauth
  split at hauth
  · rename_i a heff
    cases hauth
    unfold RawHttp1RequestHead.effectiveAuthority at heff
    rw [htarget, ok_bind] at heff
    obtain ⟨host, hhost, heff⟩ := bind_eq_ok.1 heff
    have hsome := okOr_eq_ok.1 heff
    rw [hsome] at hhost
    rcases valid_of_optionalHostLoop hhost with hnone | hval
    · cases hnone
    · exact hval
  · split_ifs at hauth
    cases hauth
  · cases hauth

/-- The head that an upstream reads is valid. -/
theorem validateMessage_upstream (headLen : ℕ)
    (h : ReadAs headers (upstreamFields host request keepAlive attemptTraceparent))
    (htarget : http1RequestTarget method target = .ok (.origin raw path query))
    (hhost : validateHttp1Authority host = .ok ()) (hbody : request.body.length ≤ u64Max) :
    ∃ directive,
      (⟨method, target, .http11, headers, headLen⟩ : RawHttp1RequestHead).validateMessage =
      .ok ⟨.origin raw path query,
        if request.body = [] then .noBody else .contentLength request.body.length,
        directive, some host⟩ := by
  obtain ⟨header, hheader, hfield⟩ := map_eq_singleton_iff.1 (upstream_host h hhost)
  have hv : header.value = host := congrArg Prod.snd hfield
  have hopt : http1OptionalHost headers = .ok (some host) := by
    rw [← hv]
    exact http1OptionalHost_of_one hheader (by rwa [hv])
  obtain ⟨connection, hconn, hopti⟩ := map_eq_singleton_iff.1 (upstream_connection h)
  have hopts : http1ConnectionOptions headers = .ok [connectionOption keepAlive] := by
    refine http1ConnectionOptions_of_one hconn ?_
    rw [show connection.value = connectionOption keepAlive from congrArg Prod.snd hopti]
    cases keepAlive <;> rfl
  obtain ⟨directive, hdir⟩ : ∃ directive,
      http1ConnectionDirective .http11 headers = .ok directive := by
    rw [http1ConnectionDirective, hopts, ok_bind]
    split_ifs
    · exact ⟨_, rfl⟩
    · exact ⟨_, rfl⟩
    · exact ⟨_, rfl⟩
  refine ⟨directive, validateMessage_eq_ok_iff.2 ⟨fun _ => ⟨host, ?_⟩, htarget, ?_,
    upstream_framing h hbody, hdir⟩⟩
  · rw [http1RequiredHost, hopt]
    rfl
  · rw [RawHttp1RequestHead.optionalAuthority, RawHttp1RequestHead.effectiveAuthority, htarget,
      hopt]
    rfl

/-! ### Requests of the head parser -/

section

variable {limits : Http1HeadLimits} {input body : Bytes} {head : ValidatedHttp1RequestHead}

theorem requestHost_owned (head : ValidatedHttp1RequestHead) (body : Bytes) :
    requestHost { ownedRequestFromHead head with body := body } =
      head.validation.effectiveAuthority := by
  have hnone : ((head.head.headers.filter fun header => ¬ header.named "host").map
      fun header => (header.name, header.value)).find? (fun header => nameIs header.1 "host")
        = none := by
    rw [find?_eq_none]
    intro field hfield
    obtain ⟨header, hheader, rfl⟩ := mem_map.1 hfield
    show ¬ header.named "host" = true
    simpa using (mem_filter.1 hheader).2
  unfold requestHost ownedRequestFromHead ownedHeaders
  rw [find?_append, hnone]
  cases head.validation.effectiveAuthority <;> rfl

/-- The client nominated a header in a `Connection` field. -/
def Nominated (head : ValidatedHttp1RequestHead) (name : Bytes) : Prop :=
  ∃ header ∈ head.head.headers, header.named "connection" = true ∧
    ∃ token ∈ header.value.splitOn 44, eqIgnoreCase (trim token) name = true

/-- A header is one of the hop-by-hop headers. -/
def HopByHop (name : Bytes) : Prop :=
  ∃ blocked ∈ HOP_BY_HOP_REQUEST_HEADERS, nameIs name blocked = true

/-- What the client nominated is not passed on. -/
theorem not_passedOn_of_nominated {name : Bytes} (hname : name ≠ []) (h : Nominated head name) :
    passedOn { ownedRequestFromHead head with body := body } name = false := by
  obtain ⟨header, hheader, hconn, tok, htok, heq⟩ := h
  have hne : trim tok ≠ [] := by
    rintro hnil
    rw [hnil, eqIgnoreCase_iff] at heq
    exact hname (map_eq_nil_iff.1 heq.symm)
  have hown : (header.name, header.value) ∈ (ownedRequestFromHead head).headers := by
    refine mem_append_left _ (mem_map.2 ⟨header, mem_filter.2 ⟨hheader, ?_⟩, rfl⟩)
    simpa using header.not_named_of_named hconn (by decide +kernel)
  have hmem : (trim tok).map lower ∈
      connectionTokens { ownedRequestFromHead head with body := body } := by
    refine mem_map.2 ⟨trim tok, mem_filter.2 ⟨mem_map.2 ⟨tok, ?_, rfl⟩,
      by simpa using hne⟩, rfl⟩
    exact mem_flatMap.2 ⟨_, mem_filter.2 ⟨hown, hconn⟩, htok⟩
  have hlow : eqIgnoreCase ((trim tok).map lower) name = true := by
    rw [eqIgnoreCase_iff] at heq ⊢
    rw [map_lower_lower, heq]
  have hhop : upstreamHopByHopHeader name
      (connectionTokens { ownedRequestFromHead head with body := body }) = true := by
    rw [upstreamHopByHopHeader, Bool.or_eq_true]
    exact Or.inr (any_eq_true.2 ⟨_, hmem, hlow⟩)
  rw [passedOn, hhop]
  rfl

/-- The names of the fields that the proxy writes itself. -/
def proxyNames : List String := ["host", "connection", "content-length", "via"]

/-- A header that is read is the proxy's own, or one of the client that was passed on. -/
theorem upstream_cases {host : Bytes} {request : NativeHttp1Request} {keepAlive : Bool}
    {attemptTraceparent : Option Bytes} {headers : List Http1Header} {header : Http1Header}
    (h : ReadAs headers (upstreamFields host request keepAlive attemptTraceparent))
    (hheader : header ∈ headers) :
    (∃ name ∈ proxyNames, header.name = ascii name) ∨ passedOn request header.name = true := by
  obtain ⟨field, hfield, heq⟩ : ∃ field ∈ upstreamFields host request keepAlive attemptTraceparent,
      (field.1, trim field.2) = header.field :=
    mem_map.1 (h ▸ mem_map_of_mem hheader)
  rw [show header.name = field.1 from (congrArg Prod.fst heq).symm]
  simp only [upstreamFields, mem_cons, mem_append, not_mem_nil, or_false] at hfield
  rcases hfield with rfl | rfl | (hfield | hfield) | rfl
  · exact Or.inl ⟨"host", by decide, rfl⟩
  · exact Or.inl ⟨"connection", by decide, rfl⟩
  · unfold lengthFields at hfield
    split_ifs at hfield
    · rw [mem_singleton] at hfield
      exact Or.inl ⟨"content-length", by decide, by rw [hfield]⟩
    · cases hfield
  · exact Or.inr (passedOn_of_mem hfield)
  · exact Or.inl ⟨"via", by decide, rfl⟩

/-- The only hop-by-hop header that the proxy writes is `Connection`. -/
theorem proxyNames_hopByHop : ∀ name ∈ proxyNames, ∀ blocked ∈ HOP_BY_HOP_REQUEST_HEADERS,
    nameIs (ascii name) blocked = true → nameIs (ascii name) "connection" = true := by
  decide +kernel

/-- **An upstream reads the request that was meant.**  What is written for a request of the head
parser, with a target in origin form, is read by the same parser as one request: the same method
and target, one host, the length of the body, and then exactly the body.  Its `Connection`
and `Content-Length` are those of the proxy, it has no other hop-by-hop header, and a header that
the client nominated in a `Connection` field is there only as one that the proxy writes itself. -/
theorem writeUpstreamRequest_parsed (input body authority output raw path : Bytes)
    (query : Option Bytes) (limits limits' : Http1HeadLimits) (head : ValidatedHttp1RequestHead)
    (keepAlive : Bool) (attemptTraceparent : Option Bytes)
    (hparse : parseHttp1RequestHead input limits = .ok (some head))
    (horigin : head.validation.requestTarget = .origin raw path query)
    (hbody : body.length ≤ isizeMax) (hauthority : validateHttp1Authority authority = .ok ())
    (hwrite : writeUpstreamRequest authority { ownedRequestFromHead head with body := body }
      keepAlive attemptTraceparent = .ok output)
    (hroom : HeadRoom limits' (output.length - body.length)) :
    ∃ v : ValidatedHttp1RequestHead, parseHttp1RequestHead output limits' = .ok (some v) ∧
      v.head.method = head.head.method ∧ v.head.target = head.head.target ∧
      v.validation.bodyFraming = (if body = [] then .noBody else .contentLength body.length) ∧
      output.drop v.head.headLen = body ∧
      (fieldsNamed "host" v.head.headers).map Http1Header.field =
        [(ascii "host", head.validation.effectiveAuthority.getD authority)] ∧
      (fieldsNamed "connection" v.head.headers).map Http1Header.field =
        [(ascii "connection", connectionOption keepAlive)] ∧
      (fieldsNamed "content-length" v.head.headers).map Http1Header.field = lengthFields body ∧
      fieldsNamed "transfer-encoding" v.head.headers = [] ∧
      (∀ header ∈ v.head.headers, HopByHop header.name → header.named "connection" = true) ∧
      ∀ header ∈ v.head.headers, Nominated head header.name →
        ∃ name ∈ proxyNames, header.name = ascii name := by
  obtain ⟨hraw, hvalidation⟩ := parseHttp1RequestHead_eq_some_iff.1 hparse
  obtain ⟨fields, hof, -, -⟩ := parseHttp1RequestHeadRaw_iff.1 hraw
  obtain ⟨htarget, heff⟩ := validateMessage_origin hvalidation horigin
  obtain ⟨target, host, htarget', hhost, rfl, hclient⟩ := writeUpstreamRequest_eq_ok hwrite
  -- the target in origin form is written as it is, and the host is a valid one
  have hsame : target = head.head.target := by
    unfold upstreamOriginTarget at htarget'
    rw [show http1RequestTarget (ownedRequestFromHead head).method
      (ownedRequestFromHead head).target = _ from htarget] at htarget'
    cases htarget'
    rfl
  subst hsame
  rw [requestHost_owned] at hhost
  have hval : validateHttp1Authority host = .ok () := by
    rw [hhost]
    cases heq : head.validation.effectiveAuthority with
    | none => exact hauthority
    | some x => exact heff x heq
  have hgood : ∀ field ∈ upstreamFields host { ownedRequestFromHead head with body := body }
      keepAlive attemptTraceparent, GoodField field := upstreamFields_good hval hclient
  rw [length_append, Nat.add_sub_cancel] at hroom
  obtain ⟨headers, hread, hhead⟩ :=
    parseHttp1RequestHeadRaw_writeHead body hof.method_token ⟨_, htarget⟩ hgood hroom
  have hlen : body.length ≤ u64Max := hbody.trans (by decide)
  obtain ⟨dir, hmessage⟩ := validateMessage_upstream _ hread htarget hval hlen
  refine ⟨⟨_, _⟩, parseHttp1RequestHead_eq_some_iff.2 ⟨hhead, hmessage⟩, rfl, rfl, rfl,
    drop_left, by rw [← hhost]; exact upstream_host hread hval, upstream_connection hread,
    upstream_contentLength hread, upstream_transferEncoding hread, ?_, ?_⟩
  · rintro header hheader ⟨blocked, hblocked, hname⟩
    rcases upstream_cases hread hheader with ⟨name, hproxy, heq⟩ | hpass
    · rw [Http1Header.named, heq]
      rw [heq] at hname
      exact proxyNames_hopByHop name hproxy blocked hblocked hname
    · rw [not_nameIs_of_passedOn hpass (mem_append_left _ hblocked)] at hname
      cases hname
  · intro header hheader hnom
    rcases upstream_cases hread hheader with hproxy | hpass
    · exact hproxy
    · rw [not_passedOn_of_nominated (httpTokenValid_iff.1 header.name_token).1 hnom] at hpass
      cases hpass

end

/-- A header of two texts that pass its checks. -/
def Http1Header.ofText (name value : String)
    (h : httpTokenValid (ascii name) = true ∧ Plain (ascii value)) : Http1Header :=
  ⟨ascii name, ascii value, h.1, h.2.1, h.2.2⟩

/-- A field that `Connection` names. -/
def nominatingHeaders : List Http1Header :=
  [.ofText "Host" "b" (by decide +kernel), .ofText "Connection" "x" (by decide +kernel),
    .ofText "X" "1" (by decide +kernel)]

/-- A request with a body, whose client nominates a header of its own. -/
theorem writeUpstreamRequest_parsed_body :
    ∃ head v : ValidatedHttp1RequestHead, ∃ output,
      parseHttp1RequestHead (ascii "POST / HTTP/1.1\r\nHost:b\r\nConnection:x\r\nX:1\r\n\r\n")
        .default = .ok (some head) ∧
      writeUpstreamRequest (ascii "c") { ownedRequestFromHead head with body := ascii "hi" } false
        none = .ok output ∧
      parseHttp1RequestHead output .default = .ok (some v) ∧
      v.validation.bodyFraming = .contentLength 2 ∧ output.drop v.head.headLen = ascii "hi" := by
  have hparse : parseHttp1RequestHead
      (ascii "POST / HTTP/1.1\r\nHost:b\r\nConnection:x\r\nX:1\r\n\r\n") .default =
      .ok (some ⟨⟨ascii "POST", ascii "/", .http11,
        nominatingHeaders, 46⟩,
        ⟨.origin (ascii "/") (ascii "/") none, .noBody, .persistent, some (ascii "b")⟩⟩) := by
    decide +kernel
  have hwrite : writeUpstreamRequest (ascii "c")
      ⟨ascii "POST", ascii "/", .http11, ownedHeaders nominatingHeaders
        (some (ascii "b")), ascii "hi"⟩ false none =
      .ok (ascii ("POST / HTTP/1.1\r\nhost: b\r\nconnection: close\r\ncontent-length: 2\r\n" ++
        "via: 1.1 fluxheim\r\n\r\nhi")) := by
    decide +kernel
  obtain ⟨v, hv, -, -, hframing, hbody, -⟩ := writeUpstreamRequest_parsed _ (ascii "hi") _ _ _ _ _
    _ .default _ false none hparse rfl (by decide +kernel) (by decide +kernel) hwrite
    ⟨by decide +kernel, by decide +kernel, by decide +kernel, by decide +kernel⟩
  exact ⟨_, v, _, hparse, hwrite, hv, hframing, hbody⟩

/-- The client nominates its own `Via`, and an upstream reads a hop-by-hop header and a nominated
one: the `Connection` and the `Via` of the proxy. -/
theorem writeUpstreamRequest_connection_via :
    ∃ head v output,
      parseHttp1RequestHead
        (ascii "GET / HTTP/1.1\r\nHost:b\r\nConnection:via\r\nVia:1.0 x\r\n\r\n") .default =
          .ok (some head) ∧
      head.validation.requestTarget = .origin (ascii "/") (ascii "/") none ∧
      writeUpstreamRequest (ascii "c") (ownedRequestFromHead head) false none = .ok output ∧
      parseHttp1RequestHead output .default = .ok (some v) ∧
      (∃ header ∈ v.head.headers, nameIs header.name "connection" = true ∧
        "connection" ∈ HOP_BY_HOP_REQUEST_HEADERS) ∧
      ∃ header ∈ v.head.headers, nameIs header.name "via" = true ∧
        header.value = ascii "1.0 x, 1.1 fluxheim" ∧
        ∃ header' ∈ head.head.headers, nameIs header'.name "connection" = true ∧
          header'.value = ascii "via" := by
  refine ⟨⟨⟨ascii "GET", ascii "/", .http11,
        [.ofText "Host" "b" (by decide +kernel),
          .ofText "Connection" "via" (by decide +kernel),
          .ofText "Via" "1.0 x" (by decide +kernel)],
        53⟩, ⟨.origin (ascii "/") (ascii "/") none, .noBody, .persistent, some (ascii "b")⟩⟩,
    ⟨⟨ascii "GET", ascii "/", .http11,
        [.ofText "host" "b" (by decide +kernel),
          .ofText "connection" "close" (by decide +kernel),
          .ofText "via" "1.0 x, 1.1 fluxheim" (by decide +kernel)], 72⟩,
      ⟨.origin (ascii "/") (ascii "/") none, .noBody, .close, some (ascii "b")⟩⟩,
    ascii ("GET / HTTP/1.1\r\nhost: b\r\nconnection: close\r\n" ++
      "via: 1.0 x, 1.1 fluxheim\r\n\r\n"),
    by decide +kernel, rfl, by decide +kernel, by decide +kernel, ?_, ?_⟩
  · exact ⟨_, .tail _ (.head _), by decide +kernel, by decide⟩
  · exact ⟨_, .tail _ (.tail _ (.head _)), by decide +kernel, rfl, _, .tail _ (.head _),
      by decide +kernel, rfl⟩

end Fluxheim
