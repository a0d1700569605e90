import Fluxheim.Http1.Head

/-!
# The grammar of request heads

What `parseHttp1RequestHeadRaw` accepts, as a text: `writeHead` writes a head from its parts, and
the parser accepts exactly the inputs that begin with a head so written.  So a head that was parsed
can be written again, with its values trimmed, and is parsed to the same head.
-/

namespace Fluxheim

open Ascii Fallible Search List

/-- The version of a request line. -/
def versionText : Http1Version → Bytes
  | .http10 => ascii "HTTP/1.0"
  | .http11 => ascii "HTTP/1.1"

/-- A request line. -/
def writeRequestLine (method target : Bytes) (version : Http1Version) : Bytes :=
  method ++ 32 :: (target ++ 32 :: versionText version)

/-- A header line from a name and a value. -/
def writeField (field : Bytes × Bytes) : Bytes := field.1 ++ 58 :: field.2

/-- A head: the request line, the header lines and an empty line. -/
def writeHead (method target : Bytes) (version : Http1Version) (fields : List (Bytes × Bytes)) :
    Bytes :=
  writeRequestLine method target version ++ crlf ++
    (fields.map fun field => writeField field ++ crlf).flatten ++ crlf

theorem writeHead_eq_joinLines (method target : Bytes) (version : Http1Version)
    (fields : List (Bytes × Bytes)) :
    writeHead method target version fields =
      joinLines 13 10 (writeRequestLine method target version :: fields.map writeField)
        ++ [13, 10] := by
  simp [writeHead, joinLines, crlf, Function.comp_def]

/-! ### The end of the head -/

variable {x input line name : Bytes}

theorem findSub_take {p : Bytes} {i k : ℕ} (h : findSub p x = some i)
    (hk : i + p.length ≤ k) : findSub p (x.take k) = some i := by
  obtain ⟨hp, hi, hpre⟩ := findSub_eq_some_iff.1 h
  rw [findSub_eq_some_iff]
  refine ⟨?_, by rw [length_take]; omega, fun j hj hpj => hpre j hj ?_⟩
  · rw [drop_take]
    exact prefix_take_iff.2 ⟨hp, by omega⟩
  · rw [drop_take] at hpj
    exact hpj.trans (List.take_prefix _ _)

/-- The window that is searched does not matter: a head that ends beyond it is too large. -/
theorem completeHeadLen_eq (input : Bytes) (limit : Usize) :
    completeHeadLen input limit = match findSub headEnd input with
      | some i => if i + 4 > limit then .error .headTooLarge else .ok (some (i + 4))
      | none => if input.length > limit then .error .headTooLarge else .ok none := by
  have hlimit := limit.le_usizeMax
  unfold completeHeadLen
  dsimp only
  cases hwin : findSub headEnd (input.take (min input.length (saturatingAdd limit 4))) with
  | some i =>
    have hall := findSub_append hwin (input.drop (min input.length (saturatingAdd limit 4)))
    rw [take_append_drop] at hall
    rw [hall]
  | none =>
    cases hfind : findSub headEnd input with
    | none => rfl
    | some i =>
      have hlen : i + 4 ≤ input.length := findSub_add_length_le hfind
      have hlong : (limit : ℕ) < i + 4 := by
        by_contra hle
        have hsat : i + 4 ≤ saturatingAdd limit 4 := le_min (by omega) (by omega)
        rw [findSub_take hfind (le_min hlen hsat)] at hwin
        cases hwin
      dsimp only
      rw [if_pos (by omega), if_pos (by omega)]

variable {limit : Usize}

theorem completeHeadLen_eq_some_iff {n : ℕ} :
    completeHeadLen input limit = .ok (some n) ↔
      ∃ i, findSub headEnd input = some i ∧ n = i + 4 ∧ n ≤ limit := by
  rw [completeHeadLen_eq]
  cases findSub headEnd input with
  | none =>
    split_ifs <;> simp
  | some i =>
    dsimp only
    split_ifs with hle
    · simp only [Option.some.injEq, false_iff]
      rintro ⟨_, rfl, rfl, hn⟩
      omega
    · simp only [Except.ok.injEq, Option.some.injEq]
      constructor
      · rintro rfl
        exact ⟨i, rfl, rfl, by omega⟩
      · rintro ⟨_, rfl, rfl, -⟩
        rfl

theorem completeHeadLen_eq_none_iff :
    completeHeadLen input limit = .ok none ↔
      findSub headEnd input = none ∧ input.length ≤ limit := by
  rw [completeHeadLen_eq]
  cases findSub headEnd input with
  | none =>
    split_ifs <;> simp <;> omega
  | some i =>
    dsimp only
    split_ifs <;> simp

/-- A head that begins where none was complete ends after it. -/
theorem lt_of_findSub_append {t : Bytes} {i : ℕ} (hx : findSub headEnd x = none)
    (h : findSub headEnd (x ++ t) = some i) : x.length < i + 4 := by
  by_contra hle
  have htake : findSub headEnd ((x ++ t).take x.length) = some i :=
    findSub_take h (by rw [show headEnd.length = 4 from rfl]; omega)
  rw [take_left, hx] at htake
  cases htake

theorem completeHeadLen_append (t : Bytes) (h : completeHeadLen x limit ≠ .ok none) :
    completeHeadLen (x ++ t) limit = completeHeadLen x limit := by
  rw [Ne, completeHeadLen_eq_none_iff] at h
  rw [completeHeadLen_eq, completeHeadLen_eq]
  cases hx : findSub headEnd x with
  | some i => rw [findSub_append hx]
  | none =>
    have hlong : (limit : ℕ) < x.length := by
      by_contra hle
      exact h ⟨hx, by omega⟩
    rw [if_pos hlong]
    cases hall : findSub headEnd (x ++ t) with
    | none =>
      rw [if_pos (by rw [length_append]; omega)]
    | some i =>
      have hi := lt_of_findSub_append hx hall
      dsimp only
      rw [if_pos (by omega)]

theorem parseVersion_eq_ok_iff {version : Http1Version} :
    parseVersion x = .ok version ↔ x = versionText version := by
  have hne : versionText .http11 ≠ ascii "HTTP/1.0" := by decide +kernel
  unfold parseVersion
  constructor
  · intro h
    split_ifs at h with h10 h11
    · cases h; exact h10
    · cases h; exact h11
  · rintro rfl
    cases version with
    | http10 => exact if_pos rfl
    | http11 =>
      rw [if_neg hne]
      exact if_pos rfl

theorem parseRequestLine_eq_ok_iff {method target : Bytes} {version : Http1Version} :
    parseRequestLine line = .ok (method, target, version) ↔
      line = writeRequestLine method target version ∧ httpTokenValid method = true ∧
        ∃ t, http1RequestTarget method target = .ok t := by
  unfold parseRequestLine
  constructor
  · intro h
    split at h
    · rename_i m t v hsplit
      split_ifs at h with hempty htok
      obtain ⟨version', hver, h⟩ := bind_eq_ok.1 h
      obtain ⟨parsed, htarget, h⟩ := bind_eq_ok.1 h
      cases h
      rw [parseVersion_eq_ok_iff] at hver
      refine ⟨?_, by simpa using htok, parsed, htarget⟩
      have hjoin : [32].intercalate (line.splitOn 32) = line := intercalate_splitOn 32
      rw [hsplit] at hjoin
      rw [← hjoin, hver]
      simp [intercalate, writeRequestLine]
    · cases h
  · rintro ⟨rfl, htok, t, htarget⟩
    have hmet : (32 : UInt8) ∉ method := fun h => by
      have := (tokenByte_spec 32 ((httpTokenValid_iff.1 htok).2 32 h)).1
      exact absurd this (by decide)
    obtain ⟨hne, hby⟩ := http1RequestTarget_bytes htarget
    have htarget32 : (32 : UInt8) ∉ target := fun h => absurd (hby 32 h).1 (by decide)
    have hver32 : (32 : UInt8) ∉ versionText version := by cases version <;> decide +kernel
    have hsplit : (writeRequestLine method target version).splitOn 32
        = [method, target, versionText version] := by
      rw [writeRequestLine, splitOn_append_cons_self_of_not_mem hmet,
        splitOn_append_cons_self_of_not_mem htarget32, splitOn_eq_singleton hver32]
    simp only [hsplit]
    rw [if_neg (not_or.2 ⟨(httpTokenValid_iff.1 htok).1, hne⟩), if_neg (not_not.2 htok),
      parseVersion_eq_ok_iff.2 rfl, ok_bind, htarget, ok_bind]

variable {header : Http1Header}

theorem Http1Header.new_eq_ok_iff {raw : Bytes} :
    Http1Header.new name raw = .ok header ↔
      header.name = name ∧ header.value = trim raw ∧
        ∀ b ∈ raw, headerValueForbidden b = false := by
  unfold new
  constructor
  · intro h
    split_ifs at h with hname hv
    cases h
    exact ⟨rfl, rfl, hv⟩
  · rintro ⟨rfl, hv, hclean⟩
    rw [dif_pos header.name_token, dif_pos hclean]
    cases header
    subst hv
    rfl

theorem token_not_colon (h : httpTokenValid name = true) : (58 : UInt8) ∉ name :=
  fun hmem => (tokenByte_spec 58 ((httpTokenValid_iff.1 h).2 58 hmem)).2.2.2.2.2.1 rfl

/-- A header line is a name, a colon and a value, trimmed by the parser. -/
theorem parseHeaderLine_eq_ok_iff :
    parseHeaderLine line = .ok header ↔
      ∃ raw, line = writeField (header.name, raw) ∧ header.value = trim raw ∧
        ∀ b ∈ raw, headerValueForbidden b = false := by
  unfold parseHeaderLine
  constructor
  · intro h
    cases hsplit : splitOnce 58 line with
    | none => rw [hsplit] at h; cases h
    | some ps =>
      obtain ⟨name, raw⟩ := ps
      rw [hsplit] at h
      obtain ⟨hline, -⟩ := splitOnce_eq_some_iff.1 hsplit
      obtain ⟨rfl, hv, hclean⟩ := Http1Header.new_eq_ok_iff.1 h
      exact ⟨raw, hline, hv, hclean⟩
  · rintro ⟨raw, rfl, hv, hclean⟩
    have hsplit : splitOnce 58 (writeField (header.name, raw)) = some (header.name, raw) :=
      splitOnce_eq_some_iff.2 ⟨rfl, token_not_colon header.name_token⟩
    rw [hsplit]
    exact Http1Header.new_eq_ok_iff.2 ⟨rfl, hv, hclean⟩

/-- The name and the value of a header. -/
def Http1Header.field (header : Http1Header) : Bytes × Bytes := (header.name, header.value)

/-- A field as it stands in a head, and the header it is parsed to. -/
structure FieldOf (limits : Http1HeadLimits) (field : Bytes × Bytes) (header : Http1Header) :
    Prop where
  name_eq : header.name = field.1
  value_eq : header.value = trim field.2
  clean : ∀ b ∈ field.2, headerValueForbidden b = false
  line_le : (writeField field).length ≤ limits.maxHeaderLineBytes

variable {field : Bytes × Bytes}

/-- What a header line begins with. -/
theorem FieldOf.head? {limits : Http1HeadLimits} (h : FieldOf limits field header) :
    ∃ b x, writeField field = b :: x ∧ b ≠ 32 ∧ b ≠ 9 := by
  have htok := header.name_token
  rw [h.name_eq] at htok
  obtain ⟨b, x, hname⟩ := exists_cons_of_ne_nil (httpTokenValid_iff.1 htok).1
  have hb := (tokenByte_spec b ((httpTokenValid_iff.1 htok).2 b (by simp [hname]))).1
  refine ⟨b, x ++ 58 :: field.2, by rw [writeField, hname]; rfl, ?_, ?_⟩
  · rintro rfl
    exact absurd hb (by decide)
  · rintro rfl
    exact absurd hb (by decide)

variable (limits : Http1HeadLimits)

/-- The loop over the header lines reads nonempty lines up to the first empty one. -/
theorem parseHeaderLines_eq_ok_iff {before headers : List Http1Header} {lines rest : List Bytes}
    (hpre : before.length ≤ limits.maxHeaderCount) (hlines : ∀ l ∈ lines, l ≠ []) :
    parseHeaderLines limits before (lines ++ [] :: rest) = .ok headers ↔
      ∃ fields new, lines = fields.map writeField ∧ headers = before ++ new ∧
        List.Forall₂ (FieldOf limits) fields new ∧ headers.length ≤ limits.maxHeaderCount := by
  induction lines generalizing before with
  | nil =>
    rw [nil_append, parseHeaderLines]
    constructor
    · intro h
      cases h
      exact ⟨[], [], rfl, by simp, .nil, hpre⟩
    · rintro ⟨fields, new, hfields, rfl, hall, -⟩
      have : fields = [] := map_eq_nil_iff.1 hfields.symm
      subst this
      cases hall
      simp
  | cons line lines ih =>
    rw [forall_mem_cons] at hlines
    rw [cons_append, parseHeaderLines, if_neg hlines.1]
    constructor
    · intro h
      split_ifs at h with hlen hfold hcount
      obtain ⟨header, hheader, h⟩ := bind_eq_ok.1 h
      obtain ⟨raw, hline, hv, hclean⟩ := parseHeaderLine_eq_ok_iff.1 hheader
      obtain ⟨fields, new, rfl, hheaders, hall, hle⟩ :=
        (ih (by rw [length_append, length_singleton]; omega) hlines.2).1 h
      refine ⟨(header.name, raw) :: fields, header :: new, by rw [hline]; rfl,
        by rw [hheaders]; simp, .cons ⟨rfl, hv, hclean, by rw [← hline]; omega⟩ hall, hle⟩
    · rintro ⟨fields, new, hfields, rfl, hall, hle⟩
      cases hall with
      | nil => cases hfields
      | @cons field header fields new hfield hall =>
        obtain ⟨rfl, rfl⟩ := hfields
        obtain ⟨b, x, hhead, hspace, htab⟩ := hfield.head?
        have hline := hfield.line_le
        rw [length_append, length_cons] at hle
        have hparse : parseHeaderLine (writeField field) = .ok header := by
          refine parseHeaderLine_eq_ok_iff.2 ⟨field.2, ?_, hfield.value_eq, hfield.clean⟩
          rw [hfield.name_eq]
        rw [if_neg (by omega), if_neg (by simp [hhead, hspace, htab]), if_neg (by omega), hparse,
          ok_bind, ih (by rw [length_append, length_singleton]; omega) hlines.2]
        exact ⟨fields, new, rfl, by simp, hall, by simp; omega⟩

/-! ### Heads -/

/-- A head and the fields it is written with: what the parser checks. -/
structure HeadOf (head : RawHttp1RequestHead) (fields : List (Bytes × Bytes)) : Prop where
  method_token : httpTokenValid head.method = true
  target_valid : ∃ t, http1RequestTarget head.method head.target = .ok t
  start_le : (writeRequestLine head.method head.target head.version).length
    ≤ limits.maxStartLineBytes
  fields_of : List.Forall₂ (FieldOf limits) fields head.headers
  count_le : head.headers.length ≤ limits.maxHeaderCount
  head_le : (writeHead head.method head.target head.version fields).length ≤ limits.maxHeadBytes

/-- A control character. -/
def isControl (b : UInt8) : Bool := b < 0x20 || b = 0x7f

theorem isControl_of_visible (b : UInt8) : 32 ≤ b → b ≤ 126 → isControl b = false := by
  revert b; apply forall_byte; decide +kernel

theorem eq_tab_of_clean (b : UInt8) :
    headerValueForbidden b = false → b ≤ 126 ∧ (isControl b = true → b = 9) := by
  revert b; apply forall_byte; decide +kernel

theorem token_visible (h : httpTokenValid x = true) : ∀ b ∈ x, 32 ≤ b ∧ b ≤ 126 := by
  intro b hb
  have hspec := tokenByte_spec b ((httpTokenValid_iff.1 h).2 b hb)
  exact ⟨UInt8.le_trans (by decide) hspec.1, hspec.2.1⟩

variable {limits} {head : RawHttp1RequestHead} {fields : List (Bytes × Bytes)}

/-- The request line has only visible characters and spaces. -/
theorem HeadOf.requestLine_visible (h : HeadOf limits head fields) :
    ∀ b ∈ writeRequestLine head.method head.target head.version, 32 ≤ b ∧ b ≤ 126 := by
  obtain ⟨t, ht⟩ := h.target_valid
  have hver : ∀ b ∈ versionText head.version, 32 ≤ b ∧ b ≤ 126 := by
    cases head.version <;> decide +kernel
  intro b hb
  simp only [writeRequestLine, mem_append, mem_cons] at hb
  rcases hb with hb | rfl | hb | rfl | hb
  · exact token_visible h.method_token b hb
  · decide
  · have := (http1RequestTarget_bytes ht).2 b hb
    exact ⟨UInt8.le_trans (by decide) this.1, this.2⟩
  · decide
  · exact hver b hb

theorem FieldOf.name_visible (h : FieldOf limits field header) :
    ∀ b ∈ field.1, 32 ≤ b ∧ b ≤ 126 := by
  rw [← h.name_eq]
  exact token_visible header.name_token

/-- A header line is ASCII and has no line end. -/
theorem FieldOf.line_clean
    (h : FieldOf limits field header) : ∀ b ∈ writeField field, b ≤ 126 ∧ b ≠ 13 := by
  intro b hb
  rw [writeField, mem_append, mem_cons] at hb
  rcases hb with hb | rfl | hb
  · have := h.name_visible b hb
    refine ⟨this.2, ?_⟩
    rintro rfl
    exact absurd this.1 (by decide)
  · decide
  · have hclean := h.clean b hb
    refine ⟨(eq_tab_of_clean b hclean).1, ?_⟩
    rintro rfl
    cases hclean

theorem exists_of_mem_forall₂ {α β : Type} {R : α → β → Prop} {xs : List α} {ys : List β}
    (h : List.Forall₂ R xs ys) {x : α} (hx : x ∈ xs) : ∃ y ∈ ys, R x y := by
  induction h with
  | nil => cases hx
  | @cons a b xs ys hab _ ih =>
    rcases mem_cons.1 hx with rfl | hx
    · exact ⟨b, by simp, hab⟩
    · obtain ⟨y, hy, hxy⟩ := ih hx
      exact ⟨y, by simp [hy], hxy⟩

theorem HeadOf.lines_clean (h : HeadOf limits head fields) :
    ∀ l ∈ fields.map writeField, 13 ∉ l ∧ l ≠ [] := by
  intro l hl
  obtain ⟨field, hfield, rfl⟩ := mem_map.1 hl
  obtain ⟨header, -, hof⟩ := exists_of_mem_forall₂ h.fields_of hfield
  obtain ⟨b, x, hhead, -, -⟩ := hof.head?
  exact ⟨fun hmem => (hof.line_clean 13 hmem).2 rfl, by simp [hhead]⟩

theorem HeadOf.requestLine_clean (h : HeadOf limits head fields) :
    13 ∉ writeRequestLine head.method head.target head.version := fun hmem =>
  absurd (h.requestLine_visible 13 hmem).1 (by decide)

theorem HeadOf.utf8Valid (h : HeadOf limits head fields) :
    utf8Valid (writeHead head.method head.target head.version fields) = true := by
  have hascii : ∀ b : UInt8, b ≤ 126 → b < 0x80 := fun b hb =>
    UInt8.lt_of_le_of_lt hb (by decide)
  have hcrlf : ∀ b ∈ crlf, b < 0x80 := by decide +kernel
  refine utf8Valid_of_ascii fun b hb => ?_
  simp only [writeHead, mem_append] at hb
  rcases hb with ((hb | hb) | hb) | hb
  · exact hascii b (h.requestLine_visible b hb).2
  · exact hcrlf b hb
  · obtain ⟨l, hl, hb⟩ := mem_flatten.1 hb
    obtain ⟨field, hfield, rfl⟩ := mem_map.1 hl
    obtain ⟨header, -, hof⟩ := exists_of_mem_forall₂ h.fields_of hfield
    rcases mem_append.1 hb with hb | hb
    · exact hascii b (hof.line_clean b hb).1
    · exact hcrlf b hb
  · exact hcrlf b hb

/-- A head in front of any bytes is cut at its end. -/
theorem HeadOf.findSub_headEnd (h : HeadOf limits head fields) (rest : Bytes) :
    ∃ i, findSub headEnd (writeHead head.method head.target head.version fields ++ rest) = some i ∧
      (writeHead head.method head.target head.version fields).length = i + 4 := by
  have hfind := findSub_joinLines (b := 10) (by decide) h.requestLine_clean h.lines_clean rest
  refine ⟨_, by rw [writeHead_eq_joinLines, append_assoc]; exact hfind, ?_⟩
  rw [writeHead_eq_joinLines, joinLines_cons]
  simp only [length_append, length_cons, length_nil]
  omega

/-- **The heads that are accepted** are those that are written from valid parts, whatever follows
them. -/
theorem parseHttp1RequestHeadRaw_iff :
    parseHttp1RequestHeadRaw input limits = .ok (some head) ↔
      ∃ fields, HeadOf limits head fields ∧
        writeHead head.method head.target head.version fields <+: input ∧
        head.headLen = (writeHead head.method head.target head.version fields).length := by
  unfold parseHttp1RequestHeadRaw
  rw [bind_eq_ok]
  constructor
  · rintro ⟨n, hn, h⟩
    cases n with
    | none => cases h
    | some n =>
      obtain ⟨i, hfind, rfl, hle⟩ := completeHeadLen_eq_some_iff.1 hn
      simp only at h
      split_ifs at h
      obtain ⟨raw, hraw, h⟩ := bind_eq_ok.1 h
      cases h
      obtain ⟨l, ls, hlines, hls, -⟩ := splitPair_take_of_findSub (by decide) hfind
      have hinp : input.take (i + 4) = joinLines 13 10 (l :: ls) ++ [13, 10] := by
        rw [← intercalate_joinLines, cons_append, ← hlines, intercalate_splitPair]
      rw [hlines, parseHeadLines] at hraw
      split_ifs at hraw with hstart
      obtain ⟨⟨method, target, version⟩, hline, hraw⟩ := bind_eq_ok.1 hraw
      obtain ⟨headers, hheaders, hraw⟩ := bind_eq_ok.1 hraw
      cases hraw
      obtain ⟨rfl, htok, htarget⟩ := parseRequestLine_eq_ok_iff.1 hline
      obtain ⟨fields, new, rfl, rfl, hall, hcount⟩ :=
        (parseHeaderLines_eq_ok_iff limits (Nat.zero_le _) hls).1 hheaders
      rw [← writeHead_eq_joinLines] at hinp
      have hlen : i + 4 ≤ input.length := findSub_add_length_le hfind
      have hheadLen : (writeHead method target version fields).length = i + 4 := by
        rw [← hinp, length_take]
        omega
      exact ⟨fields, ⟨htok, htarget, by simp only; omega, hall, hcount, by simp only; omega⟩,
        hinp ▸ List.take_prefix _ _, hheadLen.symm⟩
  · rintro ⟨fields, hof, ⟨rest, rfl⟩, hlen⟩
    obtain ⟨i, hfind, hi⟩ := hof.findSub_headEnd rest
    have hhead := hof.head_le
    refine ⟨some (i + 4), completeHeadLen_eq_some_iff.2 ⟨i, hfind, rfl, by omega⟩, ?_⟩
    have htake : (writeHead head.method head.target head.version fields ++ rest).take (i + 4)
        = writeHead head.method head.target head.version fields := take_left' hi
    have hlines : splitPair 13 10 (writeHead head.method head.target head.version fields)
        = writeRequestLine head.method head.target head.version ::
          (fields.map writeField ++ [[], []]) := by
      rw [writeHead_eq_joinLines, splitPair_joinLines]
      · rfl
      · rw [forall_mem_cons]
        exact ⟨hof.requestLine_clean, fun l hl => (hof.lines_clean l hl).1⟩
    have hstart := hof.start_le
    have hheaders : parseHeaderLines limits [] (fields.map writeField ++ [[], []])
        = .ok head.headers :=
      (parseHeaderLines_eq_ok_iff limits (Nat.zero_le _)
        (fun l hl => (hof.lines_clean l hl).2)).2
        ⟨fields, head.headers, rfl, rfl, hof.fields_of, hof.count_le⟩
    simp only [htake, hof.utf8Valid, hlines, parseHeadLines]
    rw [if_neg (by simp), if_neg (by omega), parseRequestLine_eq_ok_iff.2
      ⟨rfl, hof.method_token, hof.target_valid⟩, ok_bind]
    rw [hheaders, ok_bind, ok_bind, ← hi, ← hlen]

/-! ### Writing a parsed head again -/

theorem map_field_eq {headers : List Http1Header}
    (h : List.Forall₂ (FieldOf limits) fields headers) :
    headers.map Http1Header.field = fields.map fun field => (field.1, trim field.2) := by
  induction h with
  | nil => rfl
  | cons hof _ ih => rw [map_cons, map_cons, ih, Http1Header.field, hof.name_eq, hof.value_eq]

/-- A line is not longer for a trimmed value. -/
theorem FieldOf.length_again_le (h : FieldOf limits field header) :
    (writeField header.field).length ≤ (writeField field).length := by
  have htrim := length_trim_le field.2
  simp only [writeField, Http1Header.field, length_append, length_cons]
  rw [h.name_eq, h.value_eq]
  omega

/-- A header that was parsed is parsed again to itself. -/
theorem FieldOf.again (h : FieldOf limits field header) : FieldOf limits header.field header where
  name_eq := rfl
  value_eq := header.value_trimmed.symm
  clean := header.value_clean
  line_le := h.length_again_le.trans h.line_le

theorem length_writeHead (method target : Bytes) (version : Http1Version)
    (fields : List (Bytes × Bytes)) : (writeHead method target version fields).length =
      (writeRequestLine method target version).length + 4 +
        (fields.map fun field => (writeField field).length + 2).sum := by
  simp only [writeHead, length_append, crlf_length, length_flatten, map_map, Function.comp_def]
  omega

theorem HeadOf.again (h : HeadOf limits head fields) :
    HeadOf limits head (head.headers.map Http1Header.field) where
  method_token := h.method_token
  target_valid := h.target_valid
  start_le := h.start_le
  fields_of := by
    rw [forall₂_map_left_iff, forall₂_same]
    intro header hheader
    obtain ⟨field, -, hof⟩ := exists_of_mem_forall₂ h.fields_of.flip hheader
    exact FieldOf.again hof
  count_le := h.count_le
  head_le := by
    refine le_trans ?_ h.head_le
    rw [length_writeHead, length_writeHead]
    refine Nat.add_le_add_left (Forall₂.sum_le_sum ?_) _
    rw [map_map, forall₂_map_left_iff, forall₂_map_right_iff]
    refine h.fields_of.flip.imp fun header field hof => ?_
    exact Nat.add_le_add_right (FieldOf.length_again_le hof) 2

variable {v : ValidatedHttp1RequestHead}

theorem parseHttp1RequestHead_eq_some_iff :
    parseHttp1RequestHead input limits = .ok (some v) ↔
      parseHttp1RequestHeadRaw input limits = .ok (some v.head) ∧
        v.head.validateMessage = .ok v.validation := by
  unfold parseHttp1RequestHead
  rw [bind_eq_ok]
  constructor
  · rintro ⟨raw, hraw, h⟩
    cases raw with
    | none => cases h
    | some raw =>
      obtain ⟨validation, hvalidation, h⟩ := bind_eq_ok.1 h
      cases h
      exact ⟨hraw, hvalidation⟩
  · rintro ⟨hraw, hvalidation⟩
    exact ⟨some v.head, hraw, bind_eq_ok.2 ⟨v.validation, hvalidation, rfl⟩⟩

theorem parseHttp1RequestHead_eq_none_iff :
    parseHttp1RequestHead input limits = .ok none ↔
      findSub headEnd input = none ∧ input.length ≤ limits.maxHeadBytes := by
  rw [← completeHeadLen_eq_none_iff]
  unfold parseHttp1RequestHead parseHttp1RequestHeadRaw
  rcases completeHeadLen input limits.maxHeadBytes with e | _ | n
  · simp
  · simp
  · simp only [ok_bind, Except.ok.injEq, reduceCtorEq, iff_false]
    by_cases hutf : utf8Valid (input.take n) = true
    · rw [if_neg (not_not.2 hutf)]
      cases parseHeadLines limits n (splitPair 13 10 (input.take n)) with
      | error e => simp
      | ok head =>
        simp only [ok_bind]
        cases head.validateMessage <;> simp
    · rw [if_pos hutf]
      simp

/-- **A head is decided by the bytes up to its end**: what follows does not matter. -/
theorem parseHttp1RequestHead_append (t : Bytes) (h : parseHttp1RequestHead x limits ≠ .ok none) :
    parseHttp1RequestHead (x ++ t) limits = parseHttp1RequestHead x limits := by
  rw [Ne, parseHttp1RequestHead_eq_none_iff, ← completeHeadLen_eq_none_iff] at h
  have happ := completeHeadLen_append t h
  unfold parseHttp1RequestHead parseHttp1RequestHeadRaw
  rw [happ]
  rcases hx : completeHeadLen x limits.maxHeadBytes with e | _ | n
  · rfl
  · rfl
  · obtain ⟨i, hfind, rfl, -⟩ := completeHeadLen_eq_some_iff.1 hx
    have hlen : i + 4 ≤ x.length := findSub_add_length_le hfind
    simp only [ok_bind]
    rw [take_append_of_le_length hlen]

/-- A head ends with the first empty line. -/
theorem headLen_of_parse (h : parseHttp1RequestHead input limits = .ok (some v)) :
    ∃ i, findSub headEnd input = some i ∧ v.head.headLen = i + 4 ∧
      v.head.headLen ≤ input.length := by
  obtain ⟨hraw, -⟩ := parseHttp1RequestHead_eq_some_iff.1 h
  obtain ⟨fields, hof, ⟨rest, rfl⟩, hlen⟩ := parseHttp1RequestHeadRaw_iff.1 hraw
  obtain ⟨i, hfind, hi⟩ := hof.findSub_headEnd rest
  exact ⟨i, hfind, hlen.trans hi, by rw [length_append]; omega⟩

/-- A validated head written from its parsed headers. -/
def ValidatedHttp1RequestHead.write (v : ValidatedHttp1RequestHead) : Bytes :=
  writeHead v.head.method v.head.target v.head.version (v.head.headers.map Http1Header.field)

/-- **A parsed head can be written and parsed again.**  The head ends with the first empty line; it
is a request line and fields, in which the only control characters are the line ends and tabs in
values; and written from the parsed headers it is parsed, under the same limits, to the same head
but for its length. -/
theorem parseHttp1RequestHead_writeHead (input : Bytes) (limits : Http1HeadLimits)
    {v : ValidatedHttp1RequestHead} (h : parseHttp1RequestHead input limits = .ok (some v)) :
    (∃ i, findSub headEnd input = some i ∧ v.head.headLen = i + 4) ∧
    (∃ fields, input.take v.head.headLen =
        writeHead v.head.method v.head.target v.head.version fields ∧
      v.head.headers.map Http1Header.field = fields.map (fun field => (field.1, trim field.2)) ∧
      (∀ b ∈ writeRequestLine v.head.method v.head.target v.head.version, isControl b = false) ∧
      ∀ field ∈ fields, (∀ b ∈ field.1, isControl b = false) ∧
        ∀ b ∈ field.2, isControl b = true → b = 9) ∧
    parseHttp1RequestHead v.write limits =
      .ok (some { v with head := { v.head with headLen := v.write.length } }) := by
  obtain ⟨hraw, hvalidation⟩ := parseHttp1RequestHead_eq_some_iff.1 h
  obtain ⟨i, hfind, hi, -⟩ := headLen_of_parse h
  obtain ⟨fields, hof, ⟨rest, rfl⟩, hlen⟩ := parseHttp1RequestHeadRaw_iff.1 hraw
  refine ⟨⟨i, hfind, hi⟩, ⟨fields, ?_, ?_, ?_, ?_⟩, ?_⟩
  · rw [hlen, take_left]
  · exact map_field_eq hof.fields_of
  · intro b hb
    have := hof.requestLine_visible b hb
    exact isControl_of_visible b this.1 this.2
  · intro field hfield
    obtain ⟨header, -, hfieldOf⟩ := exists_of_mem_forall₂ hof.fields_of hfield
    refine ⟨fun b hb => ?_, fun b hb => (eq_tab_of_clean b (hfieldOf.clean b hb)).2⟩
    have := hfieldOf.name_visible b hb
    exact isControl_of_visible b this.1 this.2
  · -- the trimmed fields are fields of the same head, at most as long
    refine parseHttp1RequestHead_eq_some_iff.2 ⟨parseHttp1RequestHeadRaw_iff.2
      ⟨v.head.headers.map Http1Header.field, ?_, prefix_refl _, rfl⟩, hvalidation⟩
    exact { hof.again with }

/-- A request with a header whose value is trimmed. -/
theorem parseHttp1RequestHead_writeHead_host :
    ∃ v, parseHttp1RequestHead (ascii "GET /a HTTP/1.1\r\nHost:  b \r\n\r\n") .default
        = .ok (some v) ∧
      v.write = ascii "GET /a HTTP/1.1\r\nHost:b\r\n\r\n" ∧
      parseHttp1RequestHead v.write .default =
        .ok (some { v with head := { v.head with headLen := v.write.length } }) := by
  refine ⟨⟨⟨ascii "GET", ascii "/a", .http11, [⟨ascii "Host", ascii "b", by decide +kernel,
    by decide +kernel, by decide +kernel⟩], 30⟩, ⟨.origin (ascii "/a") (ascii "/a") none, .noBody,
    .persistent, some (ascii "b")⟩⟩, ?_, ?_, ?_⟩
  · decide +kernel
  · decide +kernel
  · exact (parseHttp1RequestHead_writeHead (ascii "GET /a HTTP/1.1\r\nHost:  b \r\n\r\n") .default
      (by decide +kernel)).2.2

end Fluxheim
