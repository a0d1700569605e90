import Fluxheim.Cache.DiskMeta
import Fluxheim.Cache.DiskObject
import Fluxheim.Cache.Vary

/-!
# Reading back what was stored on disk

An admitted response is read back exactly if it is within the limits of the readers, which count
more than the body that the store path bounds.
-/

namespace Fluxheim.Cache

open Ascii List

/-! ### Tags -/

/-- What `collectCacheTags` keeps of the tags that it has collected. -/
structure CacheTags.Collected (s : CacheTags) : Prop where
  valid : ∀ tag ∈ s.tags, isValidCacheTag tag = true
  nodup : s.tags.Nodup
  length_le : s.tags.length ≤ MAX_CACHE_TAGS_PER_OBJECT
  totalBytes_eq : s.totalBytes = (s.tags.map List.length).sum
  totalBytes_le : s.totalBytes ≤ MAX_CACHE_TAG_BYTES_PER_OBJECT

theorem collected_nil : CacheTags.Collected ⟨[], 0⟩ :=
  ⟨by simp, nodup_nil, Nat.zero_le _, rfl, Nat.zero_le _⟩

theorem CacheTags.Collected.collectCandidates {candidates : List Bytes} {s : CacheTags}
    (h : s.Collected) : (collectCandidates candidates s).Collected := by
  induction candidates generalizing s with
  | nil => exact h
  | cons candidate rest ih =>
    rw [collectCandidates_cons]
    split_ifs with hfull hskip hlong
    · exact h
    · exact ih h
    · exact h
    · rw [not_or, Bool.not_eq_false] at hskip
      refine ih ⟨?_, ?_, ?_, ?_, not_lt.1 hlong⟩
      · intro tag htag
        rcases mem_append.1 htag with htag | htag
        · exact h.valid tag htag
        · rw [mem_singleton.1 htag]
          exact hskip.1
      · refine nodup_append.2 ⟨h.nodup, nodup_singleton _, fun tag htag other hother => ?_⟩
        rw [mem_singleton.1 hother]
        exact ne_of_mem_of_not_mem htag hskip.2
      · rw [length_append, length_singleton]
        omega
      · rw [map_append, sum_append, ← h.totalBytes_eq]
        simp

/-- The tags of a list of values, one after the other. -/
def collectAll (values : List Text) : CacheTags :=
  values.foldl (fun s value => collectCacheTags value.1 s) ⟨[], 0⟩

theorem collected_collectAll (vs : List Text) : (collectAll vs).Collected := by
  have hstep : ∀ (vs : List Text) (s : CacheTags), s.Collected →
      (vs.foldl (fun s v => collectCacheTags v.1 s) s).Collected := by
    intro vs
    induction vs with
    | nil => exact fun _ h => h
    | cons v vs ih => exact fun s h => ih _ h.collectCandidates
  exact hstep vs _ collected_nil

theorem tagByte_spec : ∀ b : UInt8, tagByte b = true →
    b < 0x80 ∧ (b == 44 || isSpace b) = false := by
  apply forall_byte
  decide +kernel

theorem tagSeparatorLength_tag {b : UInt8} (h : tagByte b = true) (x : Bytes) :
    tagSeparatorLength (b :: x) = 0 := by
  obtain ⟨hlt, hspace⟩ := tagByte_spec b h
  unfold tagSeparatorLength
  split
  case h_7 c y heq =>
    rw [← (cons.inj heq).1, hspace]
    rfl
  case h_8 heq => cases heq
  all_goals
    rename_i heq
    rw [(cons.inj heq).1] at hlt
    exact absurd hlt (by decide)

theorem tagSeparatorLength_lineFeed (x : Bytes) : tagSeparatorLength (10 :: x) = 1 := by
  unfold tagSeparatorLength
  split
  case h_7 c y heq =>
    rw [← (cons.inj heq).1]
    rfl
  case h_8 heq => cases heq
  all_goals
    rename_i heq
    exact absurd (cons.inj heq).1 (by decide)

theorem tagCandidates_tag {tag : Bytes} (h : tag.all tagByte = true) (done rest : Bytes) :
    tagCandidates 0 done (tag ++ rest) = tagCandidates 0 (done ++ tag) rest := by
  induction tag generalizing done with
  | nil => rw [nil_append, append_nil]
  | cons b tag ih =>
    rw [all_cons, Bool.and_eq_true] at h
    rw [cons_append, tagCandidates, tagSeparatorLength_tag h.1]
    rw [ih h.2, append_assoc, singleton_append]

/-- Tags on lines are cut apart. -/
theorem tagCandidates_intercalate {tags : List Bytes} (hne : tags ≠ [])
    (h : ∀ tag ∈ tags, tag.all tagByte = true) :
    tagCandidates 0 [] ([10].intercalate tags) = tags := by
  induction tags with
  | nil => exact absurd rfl hne
  | cons tag tags ih =>
    rw [forall_mem_cons] at h
    cases tags with
    | nil =>
      rw [intercalate_singleton, ← append_nil tag, tagCandidates_tag h.1]
      simp [tagCandidates]
    | cons next tags =>
      rw [intercalate_cons_cons, append_assoc, tagCandidates_tag h.1,
        singleton_append, tagCandidates, tagSeparatorLength_lineFeed, nil_append]
      dsimp only
      rw [ih (cons_ne_nil _ _) h.2]

theorem isValidCacheTag_iff {tag : Bytes} : isValidCacheTag tag = true ↔
    tag ≠ [] ∧ tag.length ≤ MAX_CACHE_TAG_LEN ∧ tag.all tagByte = true := by
  simp [isValidCacheTag, and_assoc]

/-- Collecting what has been collected gives it again: the limits are never reached before the
last tag. -/
theorem collectCandidates_self {done todo : List Bytes} {total : ℕ}
    (h : CacheTags.Collected ⟨done ++ todo, total⟩) :
    collectCandidates todo ⟨done, (done.map List.length).sum⟩ = ⟨done ++ todo, total⟩ := by
  induction todo generalizing done with
  | nil =>
    have htotal : total = ((done ++ []).map length).sum := h.totalBytes_eq
    rw [htotal, append_nil]
    rfl
  | cons tag todo ih =>
    have hval : isValidCacheTag tag = true := h.valid tag (by simp)
    have hnew : tag ∉ done := fun hmem =>
      (nodup_append.1 h.nodup).2.2 tag hmem tag mem_cons_self rfl
    have hpos : 0 < tag.length := length_pos_of_ne_nil (isValidCacheTag_iff.1 hval).1
    have hlen : (done ++ tag :: todo).length ≤ MAX_CACHE_TAGS_PER_OBJECT := h.length_le
    have htotal : total = ((done ++ tag :: todo).map length).sum := h.totalBytes_eq
    have hle : total ≤ MAX_CACHE_TAG_BYTES_PER_OBJECT := h.totalBytes_le
    rw [length_append, length_cons] at hlen
    rw [map_append, map_cons, sum_append, sum_cons] at htotal
    have hsum : ((done ++ [tag]).map length).sum = (done.map length).sum + tag.length := by
      simp
    rw [collectCandidates_cons, if_neg (by dsimp only; omega), if_neg (by simp [hval, hnew]),
      if_neg (by dsimp only; omega)]
    have happ : done ++ tag :: todo = (done ++ [tag]) ++ todo := by simp
    rw [← hsum, ih (happ ▸ h), ← happ]

/-- Tags that were collected are read back. -/
theorem decodeCacheTags_collected {s : CacheTags} (h : s.Collected) :
    decodeCacheTags (encodeCacheTags s.tags) = .ok s.tags := by
  obtain ⟨tags, total⟩ := s
  have hby : ∀ tag ∈ tags, tag ≠ [] ∧ tag.all tagByte = true := fun tag htag =>
    ⟨(isValidCacheTag_iff.1 (h.valid tag htag)).1, (isValidCacheTag_iff.1 (h.valid tag htag)).2.2⟩
  cases tags with
  | nil => rfl
  | cons tag tags =>
    have hne : encodeCacheTags (tag :: tags) ≠ [] := by
      intro hnil
      have hcut := tagCandidates_intercalate (cons_ne_nil tag tags) fun t ht => (hby t ht).2
      rw [show [10].intercalate (tag :: tags) = [] from hnil] at hcut
      exact (hby tag mem_cons_self).1 (cons.inj hcut).1.symm
    have hutf8 : utf8Valid (encodeCacheTags (tag :: tags)) = true := by
      refine utf8Valid_of_ascii fun b hb => ?_
      rcases Search.mem_of_mem_intercalate hb with hb | ⟨t, ht, hb⟩
      · rw [mem_singleton.1 hb]
        decide
      · exact (tagByte_spec b (all_eq_true.1 (hby t ht).2 b hb)).1
    rw [decodeCacheTags, if_neg hne, hutf8, if_neg Bool.noConfusion, collectCacheTags,
      encodeCacheTags,
      tagCandidates_intercalate (cons_ne_nil tag tags) fun t ht => (hby t ht).2]
    have hself := @collectCandidates_self [] (tag :: tags) total h
    rw [map_nil, sum_nil] at hself
    rw [hself, nil_append]

theorem parseDiskCacheLen_decimal {n : ℕ} (h : n ≤ usizeMax) (rest : Bytes) :
    parseDiskCacheLen (decimal n ++ 10 :: rest) = .ok (n, rest) := by
  rw [parseDiskCacheLen, Search.splitOnce_eq_some_iff.2 ⟨rfl, not_mem_decimal (by decide)⟩]
  simp only [utf8Valid_decimal, Bool.true_eq_false, if_false, parseUnsigned_decimal h]

theorem checkedSum_eq {start : ℕ} {lens : List ℕ} (h : start + lens.sum ≤ U64_MAX) :
    checkedSum start lens = some (start + lens.sum) := by
  induction lens generalizing start with
  | nil => rfl
  | cons len lens ih =>
    rw [sum_cons] at h
    have hstep : checkedAdd start len = some (start + len) := checkedAdd_eq_some.2 ⟨by omega, rfl⟩
    have hrest := @ih (start + len) (by omega)
    rw [checkedSum] at hrest ⊢
    rw [foldl_cons, Option.bind_some, hstep, hrest, sum_cons, add_assoc]

theorem cacheObjectUtf8If_text (t : Text) (field : String) :
    cacheObjectUtf8If true t.1 field = .ok (some t) := by
  rw [cacheObjectUtf8If, cacheObjectUtf8, dif_pos t.2]
  rfl

/-- What is in the object of a response. -/
def serialized (key : DiskCacheObjectKey) (internalMeta responseHeader body : Bytes) :
    SerializedCacheObject where
  combinedKey := some key.combined
  primaryKey := some key.primary
  userTag := some key.userTag
  indexPath := key.indexPath
  cacheTags := key.cacheTags
  internalMeta := internalMeta
  responseHeader := responseHeader
  body := body
  weight := internalMeta.length + responseHeader.length + body.length

section

variable {key : DiskCacheObjectKey} {internalMeta responseHeader body : Bytes} {path : Text}

theorem parseDiskCacheParts_eq (hpath : key.indexPath = some path) (hne : path.1 ≠ [])
    (htags : decodeCacheTags (encodeCacheTags key.cacheTags) = .ok key.cacheTags) :
    parseDiskCacheParts 5 key.combined.1.length key.primary.1.length key.userTag.1.length
        (encodeCacheTags key.cacheTags).length key.path.length internalMeta.length
        responseHeader.length (internalMeta.length + responseHeader.length + body.length)
        (key.combined.1 ++ (key.primary.1 ++ (key.userTag.1 ++ (encodeCacheTags key.cacheTags ++
          (key.path ++ (internalMeta ++ (responseHeader ++ body))))))) =
      .ok (serialized key internalMeta responseHeader body) := by
  have hby : key.path = path.1 := by rw [DiskCacheObjectKey.path, hpath]; rfl
  have hsome : Option.filter (fun p : Text => p.1 ≠ []) (some path) = some path := by
    simp [Option.filter, hne]
  simp only [parseDiskCacheParts, take_left, drop_left, hby, Nat.reduceLeDiff,
    decide_true, cacheObjectUtf8If_text, Fallible.ok_bind, if_true, htags, hsome, serialized, hpath]

/-- What the parser makes of an encoded object. -/
theorem parse_encodeDiskCacheObject {maxObjectBytes : ℕ} (hpath : key.indexPath = some path)
    (hne : path.1 ≠ [])
    (htags : decodeCacheTags (encodeCacheTags key.cacheTags) = .ok key.cacheTags)
    (hlen : (encodeDiskCacheObject key internalMeta responseHeader body).length ≤ U64_MAX) :
    parseDiskCacheObject (encodeDiskCacheObject key internalMeta responseHeader body)
        maxObjectBytes =
      if maxObjectBytes < internalMeta.length + responseHeader.length + body.length then
        .error ⟨.invalidData, "cache object exceeds max object size"⟩
      else if U32_MAX < internalMeta.length + responseHeader.length + body.length then
        .error ⟨.invalidData, "cache object weight exceeds u32"⟩
      else .ok (serialized key internalMeta responseHeader body) := by
  have hencoded : encodeDiskCacheObject key internalMeta responseHeader body =
      DISK_CACHE_MAGIC_V5 ++ (decimal key.combined.1.length ++ 10 ::
        (decimal key.primary.1.length ++ 10 :: (decimal key.userTag.1.length ++ 10 ::
        (decimal (encodeCacheTags key.cacheTags).length ++ 10 :: (decimal key.path.length ++ 10 ::
        (decimal internalMeta.length ++ 10 :: (decimal responseHeader.length ++ 10 ::
        (decimal body.length ++ 10 ::
        (key.combined.1 ++ (key.primary.1 ++ (key.userTag.1 ++ (encodeCacheTags key.cacheTags ++
          (key.path ++ (internalMeta ++ (responseHeader ++ body))))))))))))))) := by
    simp [encodeDiskCacheObject, diskCacheObjectPlaintextPrefix]
  have hfor : ∀ rest, diskCacheFormat (DISK_CACHE_MAGIC_V5 ++ rest) = some (5, rest) := by
    intro rest
    rw [diskCacheFormat, if_pos (prefix_append _ _), drop_left]
  have husi : U64_MAX = usizeMax := rfl
  have hlength := congrArg length hencoded
  simp only [length_append, length_cons] at hlength
  rw [parseDiskCacheObject, hencoded, hfor]
  -- the lengths of the head, one after the other
  simp only [Fallible.okOr_some, Fallible.ok_bind, parseDiskCacheLenIf, Nat.reduceLeDiff,
    decide_true, if_true,
    parseDiskCacheLen_decimal (show key.combined.1.length ≤ usizeMax by omega),
    parseDiskCacheLen_decimal (show key.primary.1.length ≤ usizeMax by omega),
    parseDiskCacheLen_decimal (show key.userTag.1.length ≤ usizeMax by omega),
    parseDiskCacheLen_decimal (show (encodeCacheTags key.cacheTags).length ≤ usizeMax by omega),
    parseDiskCacheLen_decimal (show key.path.length ≤ usizeMax by omega),
    parseDiskCacheLen_decimal (show internalMeta.length ≤ usizeMax by omega),
    parseDiskCacheLen_decimal (show responseHeader.length ≤ usizeMax by omega),
    parseDiskCacheLen_decimal (show body.length ≤ usizeMax by omega)]
  have hobj : saturatingAdd (saturatingAdd internalMeta.length responseHeader.length)
      body.length = internalMeta.length + responseHeader.length + body.length := by
    rw [saturatingAdd_of_le (show internalMeta.length + responseHeader.length ≤ U64_MAX by omega),
      saturatingAdd_of_le (by omega)]
  rw [hobj]
  by_cases hmax : maxObjectBytes < internalMeta.length + responseHeader.length + body.length
  · rw [if_pos hmax, if_pos hmax]
  rw [if_neg hmax, if_neg hmax, checkedSum_eq]
  · dsimp only
    rw [if_neg]
    · by_cases hu32 : U32_MAX < internalMeta.length + responseHeader.length + body.length
      · rw [if_pos hu32, if_pos hu32]
      · rw [if_neg hu32, if_neg hu32]
        exact parseDiskCacheParts_eq hpath hne htags
    · simp only [length_append, length_cons, sum_cons, sum_nil]
      omega
  · simp only [length_append, length_cons, sum_cons, sum_nil]
    omega

end

/-! ### Metadata -/

theorem parseNumber_decimal {w : ℕ} (n : Fin (2 ^ w)) : parseNumber w (decimal n) = some n := by
  rw [parseNumber, parseUnsigned_decimal (Nat.le_sub_one_of_lt n.2), Option.bind_some, dif_pos n.2]

theorem decimal_ne_dash (n : ℕ) : decimal n ≠ [45] := fun h =>
  not_mem_decimal (n := n) (b := 45) (by decide) (h ▸ mem_singleton_self _)

theorem optionalU64_line (o : Option (Fin (2 ^ 64))) :
    nativeDiskMetaOptionalU64 (optionalLine (fun n : Fin (2 ^ 64) => decimal n.1) o) = some o := by
  cases o with
  | none => rfl
  | some n =>
    show nativeDiskMetaOptionalU64 (decimal n) = some (some n)
    rw [nativeDiskMetaOptionalU64, if_neg (decimal_ne_dash n), parseNumber_decimal]
    rfl

theorem optionalSha256_line (o : Option Digest) :
    nativeDiskMetaOptionalSha256 (optionalLine (fun digest : Digest => hexEncode digest.1) o) =
      some o := by
  cases o with
  | none => rfl
  | some digest =>
    have hlen : (hexEncode digest.1).length = 64 := by rw [length_hexEncode, digest.2]
    have hdash : hexEncode digest.1 ≠ [45] := fun h => by
      rw [h] at hlen
      cases hlen
    show nativeDiskMetaOptionalSha256 (hexEncode digest.1) = some (some digest)
    rw [nativeDiskMetaOptionalSha256, if_neg hdash, if_neg (not_not.2 hlen),
      hexDecode_hexEncode, Option.bind_some, dif_pos digest.2]

theorem staleFlag_line (o : Option Bool) :
    nativeDiskMetaStaleFlag
      (optionalLine (fun forbidden : Bool => if forbidden then [49] else [48]) o) = some o := by
  cases o with
  | none => rfl
  | some forbidden => cases forbidden <;> rfl

/-- A line of the head: ASCII, without a line feed. -/
theorem optionalLine_ascii {α : Type} {encode : α → Bytes} {o : Option α}
    (h : ∀ a, ∀ b ∈ encode a, b < 0x80 ∧ b ≠ 10) :
    10 ∉ optionalLine encode o ∧ utf8Valid (optionalLine encode o) = true := by
  cases o with
  | none =>
    show 10 ∉ [45] ∧ utf8Valid [45] = true
    decide
  | some a => exact ⟨fun hb => (h a 10 hb).2 rfl, utf8Valid_of_ascii fun b hb => (h a b hb).1⟩

theorem takeField_optionalLine {α β : Type} {encode : α → Bytes} {parse : Bytes → Option β}
    {o : Option α} {a : β} (h : ∀ a, ∀ b ∈ encode a, isHexDigit b = true)
    (hparse : parse (optionalLine encode o) = some a) (rest : Bytes) :
    takeField parse (optionalLine encode o ++ 10 :: rest) = some (a, rest) := by
  have hascii := optionalLine_ascii (o := o) fun a b hb =>
    ⟨(lt_of_isHexDigit (h a b hb)).1, (lt_of_isHexDigit (h a b hb)).2.2.1⟩
  rw [takeField_append hascii.1 hascii.2, hparse]
  rfl

namespace NativeDiskCacheMeta

variable {m : NativeDiskCacheMeta}

/-- The bytes of the metadata. -/
def size (m : NativeDiskCacheMeta) : ℕ :=
  (m.headLines.map fun line => line.length + 1).sum +
    ((m.varyFields.map fun field => (decimal field.1.length).length + 1).sum +
      (m.reason.1.length + (m.varyFields.map (·.1.length)).sum))

theorem length_encode (m : NativeDiskCacheMeta) : m.encode.length = m.size := by
  rw [encode, length_append, length_append, length_append, length_terminated,
    length_terminated, length_flatten, map_map, map_map]
  rfl

theorem varyFields_length_le (m : NativeDiskCacheMeta) :
    m.varyFields.length ≤
      (terminated (m.varyFields.map fun field => decimal field.1.length)).length := by
  have h := length_le_terminated (m.varyFields.map fun field => decimal field.1.length)
  rwa [length_map] at h

/-- The lengths of the texts are numbers of 64 bits, if the metadata is not too long. -/
theorem lengths_lt (h : m.size ≤ MAX_NATIVE_DISK_CACHE_META_BYTES) :
    m.reason.1.length < 2 ^ 64 ∧ m.varyFields.length < 2 ^ 64 ∧
      ∀ field ∈ m.varyFields, field.1.length < 2 ^ 64 := by
  have hcount := varyFields_length_le m
  rw [length_terminated, map_map] at hcount
  have hle : m.varyFields.length + m.reason.1.length + (m.varyFields.map (·.1.length)).sum ≤
      m.size := by
    rw [size]
    simp only [Function.comp_def] at hcount
    omega
  rw [MAX_NATIVE_DISK_CACHE_META_BYTES] at h
  refine ⟨by omega, by omega, fun field hfield => ?_⟩
  have hfield' : field.1.length ≤ (m.varyFields.map (·.1.length)).sum :=
    le_sum_of_mem (mem_map_of_mem hfield)
  omega

/-- The texts are read back, if there are not too many of them. -/
theorem decodeTexts_eq (hsize : m.size ≤ MAX_NATIVE_DISK_CACHE_META_BYTES) :
    decodeTexts m.reason.1.length m.varyFields.length
        (terminated (m.varyFields.map fun field => decimal field.1.length) ++
          (m.reason.1 ++ (m.varyFields.map (·.1)).flatten)) =
      if m.varyFields.length ≤ MAX_NATIVE_DISK_CACHE_VARY_FIELDS then some (m.reason, m.varyFields)
      else none := by
  obtain ⟨-, -, hfield⟩ := lengths_lt hsize
  have hcount := varyFields_length_le m
  by_cases hmany : MAX_NATIVE_DISK_CACHE_VARY_FIELDS < m.varyFields.length
  · rw [decodeTexts, if_pos (.inl hmany), if_neg (not_le.2 hmany)]
  have hok : ¬ (MAX_NATIVE_DISK_CACHE_VARY_FIELDS < m.varyFields.length ∨
      (terminated (m.varyFields.map fun field => decimal field.1.length) ++
        (m.reason.1 ++ (m.varyFields.map (·.1)).flatten)).length < m.varyFields.length) := by
    rw [length_append]
    omega
  have hval : ∀ field ∈ m.varyFields, (Fin.ofNat (2 ^ 64) field.1.length).1 = field.1.length :=
    fun field hmem => Nat.mod_eq_of_lt (hfield field hmem)
  have hparse : ∀ field ∈ m.varyFields, parseNumber 64 (decimal field.1.length) =
      some (Fin.ofNat (2 ^ 64) field.1.length) := fun field hmem => by
    have hnum := parseNumber_decimal (Fin.ofNat (2 ^ 64) field.1.length)
    rwa [hval field hmem] at hnum
  have hlens : (m.varyFields.map fun field => Fin.ofNat (2 ^ 64) field.1.length).map (·.1) =
      m.varyFields.map (·.1.length) := by
    rw [map_map]
    exact map_congr_left hval
  have htext := takeTexts_flatten m.varyFields []
  rw [append_nil] at htext
  rw [decodeTexts, if_neg hok, if_pos (not_lt.1 hmany), takeFields_decimal _ hparse]
  simp only [Option.bind_eq_bind, Option.bind_some, takeText_append, hlens, htext, if_true]

/-- Metadata is read back exactly if it is within the limits of the reader. -/
theorem decode_encode (m : NativeDiskCacheMeta) :
    decode m.encode =
      if m.size ≤ MAX_NATIVE_DISK_CACHE_META_BYTES ∧
          m.reason.1.length ≤ MAX_NATIVE_DISK_CACHE_REASON_BYTES ∧
          m.varyFields.length ≤ MAX_NATIVE_DISK_CACHE_VARY_FIELDS then some m
      else none := by
  by_cases hsize : MAX_NATIVE_DISK_CACHE_META_BYTES < m.size
  · rw [decode, length_encode, if_pos hsize, if_neg fun h => by omega]
  have hle := not_lt.1 hsize
  obtain ⟨hreason, hvary, -⟩ := lengths_lt hle
  have hnum : ∀ {n : ℕ} (h : n < 2 ^ 64), parseNumber 64 (decimal n) = some ⟨n, h⟩ :=
    fun {n} h => parseNumber_decimal (⟨n, h⟩ : Fin (2 ^ 64))
  have hmagic : ∀ rest, takeField version (ascii "FLUXHEIM-NATIVE-PROXY-CACHE-v3" ++ 10 :: rest) =
      some (3, rest) := fun rest => by
    rfl
  have hdigits : ∀ n : Fin (2 ^ 64), ∀ b ∈ decimal n, isHexDigit b = true := fun n b hb =>
    isHexDigit_of_isDigit (isDigit_of_mem_decimal hb)
  have hhex : ∀ digest : Digest, ∀ b ∈ hexEncode digest.1, isHexDigit b = true :=
    fun digest => all_eq_true.1 (hexEncode_all_isHexDigit digest.1)
  have hflag : ∀ forbidden : Bool, ∀ b ∈ (if forbidden then [49] else [48] : Bytes),
      isHexDigit b = true := by decide +kernel
  have hencoded : m.encode = ascii "FLUXHEIM-NATIVE-PROXY-CACHE-v3" ++ 10 ::
      (decimal m.status.1 ++ 10 :: (decimal m.reason.1.length ++ 10 ::
      (optionalLine (fun n : Fin (2 ^ 64) => decimal n.1) m.contentLength ++ 10 ::
      (decimal m.expiresAtUnixSecs.1 ++ 10 ::
      (optionalLine (fun n : Fin (2 ^ 64) => decimal n.1) m.staleWhileRevalidateUntilUnixSecs ++
        10 ::
      (optionalLine (fun n : Fin (2 ^ 64) => decimal n.1) m.staleIfErrorUntilUnixSecs ++ 10 ::
      (decimal m.storedAtUnixSecs.1 ++ 10 ::
      (optionalLine (fun digest : Digest => hexEncode digest.1) m.bodySha256 ++ 10 ::
      (optionalLine (fun forbidden : Bool => if forbidden then [49] else [48])
        m.staleReuseForbidden ++ 10 :: (decimal m.varyFields.length ++ 10 ::
      (terminated (m.varyFields.map fun field => decimal field.1.length) ++
        (m.reason.1 ++ (m.varyFields.map (·.1)).flatten)))))))))))) := by
    simp only [encode, headLines, terminated_cons, terminated_nil, append_assoc,
      cons_append, nil_append]
  have htext := decodeTexts_eq hle
  rw [decode, length_encode, if_neg hsize, hencoded]
  generalize terminated (m.varyFields.map fun field => decimal field.1.length) ++
    (m.reason.1 ++ (m.varyFields.map (·.1)).flatten) = texts at htext ⊢
  rw [hmagic]
  dsimp only [Option.bind_eq_bind, Option.bind_some]
  rw [takeField_decimal (parseNumber_decimal m.status)]
  dsimp only [Option.bind_some]
  rw [takeField_decimal (hnum hreason)]
  dsimp only [Option.bind_some]
  by_cases hlong : MAX_NATIVE_DISK_CACHE_REASON_BYTES < m.reason.1.length
  · rw [if_pos hlong, if_neg fun h => by omega]
  -- the lines after the length of the reason
  rw [if_neg hlong, takeField_optionalLine hdigits (optionalU64_line _)]
  dsimp only [Option.bind_some]
  rw [takeField_decimal (parseNumber_decimal m.expiresAtUnixSecs)]
  dsimp only [Option.bind_some]
  rw [takeField_optionalLine hdigits (optionalU64_line _)]
  dsimp only [Option.bind_some]
  rw [takeField_optionalLine hdigits (optionalU64_line _)]
  dsimp only [Option.bind_some]
  rw [takeField_decimal (parseNumber_decimal m.storedAtUnixSecs)]
  dsimp only [Option.bind_some]
  rw [if_pos (by decide), takeField_optionalLine hhex (optionalSha256_line _)]
  dsimp only [Option.bind_some]
  rw [if_pos le_rfl, takeField_optionalLine hflag (staleFlag_line _)]
  dsimp only [Option.bind_some]
  rw [takeField_decimal (hnum hvary)]
  dsimp only [Option.bind_some]
  rw [htext]
  by_cases hmany : m.varyFields.length ≤ MAX_NATIVE_DISK_CACHE_VARY_FIELDS
  · rw [if_pos hmany, if_pos ⟨hle, not_lt.1 hlong, hmany⟩, Option.bind_some]
  · rw [if_neg hmany, if_neg fun h => hmany h.2.2, Option.bind_none]

end NativeDiskCacheMeta

variable (header : Header)

/-- The bytes of a header in the list, with its two lengths. -/
def headerSize : ℕ :=
  (decimal header.1.1.length).length + 1 + ((decimal header.2.1.length).length + 1) +
    (header.1.1.length + header.2.1.length)

variable (headers : List Header)

/-- The bytes of a header list. -/
def headerListSize : ℕ :=
  (decimal headers.length).length + 1 + (headers.map headerSize).sum

/-- The lines of the lengths. -/
def lengthLines : Bytes :=
  terminated (headers.flatMap fun header =>
    [decimal header.1.1.length, decimal header.2.1.length])

/-- The names and the values. -/
def headerTexts : Bytes :=
  headers.flatMap fun header => header.1.1 ++ header.2.1

theorem lengthLines_cons (headers : List Header) :
    lengthLines (header :: headers) =
      decimal header.1.1.length ++ 10 ::
        (decimal header.2.1.length ++ 10 :: lengthLines headers) := by
  simp only [lengthLines, flatMap_cons, cons_append, nil_append, terminated_cons]

theorem headerTexts_cons (headers : List Header) :
    headerTexts (header :: headers) = header.1.1 ++ (header.2.1 ++ headerTexts headers) := by
  simp only [headerTexts, flatMap_cons, append_assoc]

theorem nativeDiskResponseHeaderBytes_eq :
    nativeDiskResponseHeaderBytes headers =
      decimal headers.length ++ 10 :: (lengthLines headers ++ headerTexts headers) := by
  rw [nativeDiskResponseHeaderBytes, terminated_cons, append_assoc]
  rfl

theorem length_headerParts :
    (lengthLines headers ++ headerTexts headers).length = (headers.map headerSize).sum := by
  induction headers with
  | nil => rfl
  | cons header headers ih =>
    rw [length_append] at ih ⊢
    rw [lengthLines_cons, headerTexts_cons, map_cons, sum_cons, headerSize]
    simp only [length_append, length_cons]
    omega

theorem length_nativeDiskResponseHeaderBytes :
    (nativeDiskResponseHeaderBytes headers).length = headerListSize headers := by
  rw [nativeDiskResponseHeaderBytes_eq, length_append, length_cons, length_headerParts,
    headerListSize]
  omega

theorem length_le_sum_headerSize : headers.length ≤ (headers.map headerSize).sum := by
  induction headers with
  | nil => exact le_rfl
  | cons header headers ih =>
    rw [length_cons, map_cons, sum_cons, headerSize]
    omega

theorem takeLengths_eq {headers : List Header}
    (h : ∀ header ∈ headers, header.1.1.length < 2 ^ 64 ∧ header.2.1.length < 2 ^ 64)
    (rest : Bytes) :
    takeLengths headers.length (lengthLines headers ++ rest) =
      some (headers.map fun header => (header.1.1.length, header.2.1.length), rest) := by
  induction headers with
  | nil => rfl
  | cons header headers ih =>
    rw [forall_mem_cons] at h
    have hname := parseNumber_decimal (⟨header.1.1.length, h.1.1⟩ : Fin (2 ^ 64))
    have hv := parseNumber_decimal (⟨header.2.1.length, h.1.2⟩ : Fin (2 ^ 64))
    rw [lengthLines_cons, append_assoc, cons_append, append_assoc, cons_append,
      length_cons, takeLengths, takeField_decimal hname]
    dsimp only [Option.bind_eq_bind, Option.bind_some]
    rw [takeField_decimal hv]
    dsimp only [Option.bind_some]
    rw [ih h.2]
    rfl

theorem takeHeaders_eq :
    takeHeaders (headers.map fun header => (header.1.1.length, header.2.1.length))
      (headerTexts headers) = some (headers, []) := by
  induction headers with
  | nil => rfl
  | cons header headers ih =>
    rw [headerTexts_cons, map_cons, takeHeaders, takeText_append]
    dsimp only [Option.bind_eq_bind, Option.bind_some]
    rw [takeText_append]
    dsimp only [Option.bind_some]
    rw [ih]
    rfl

/-- A header list is read back exactly if it is within the limits of the reader. -/
theorem headers_round_trip :
    nativeDiskResponseHeaders (nativeDiskResponseHeaderBytes headers) =
      if headerListSize headers ≤ MAX_NATIVE_DISK_CACHE_META_BYTES ∧
          headers.length ≤ MAX_NATIVE_DISK_CACHE_RESPONSE_HEADERS then some headers
      else none := by
  by_cases hsize : MAX_NATIVE_DISK_CACHE_META_BYTES < headerListSize headers
  · rw [nativeDiskResponseHeaders, length_nativeDiskResponseHeaderBytes, if_pos hsize,
      if_neg fun h => by omega]
  have hle := not_lt.1 hsize
  have hcount := length_le_sum_headerSize headers
  have hlen : ∀ header ∈ headers,
      header.1.1.length < 2 ^ 64 ∧ header.2.1.length < 2 ^ 64 := fun header hheader => by
    have hmem : headerSize header ≤ (headers.map headerSize).sum :=
      le_sum_of_mem (mem_map_of_mem hheader)
    rw [headerListSize, MAX_NATIVE_DISK_CACHE_META_BYTES] at hle
    rw [headerSize] at hmem
    omega
  have hlt : headers.length < 2 ^ 64 := by
    rw [headerListSize, MAX_NATIVE_DISK_CACHE_META_BYTES] at hle
    omega
  have hnum := parseNumber_decimal (⟨headers.length, hlt⟩ : Fin (2 ^ 64))
  rw [nativeDiskResponseHeaders, length_nativeDiskResponseHeaderBytes, if_neg hsize,
    nativeDiskResponseHeaderBytes_eq, takeField_decimal hnum]
  dsimp only [Option.bind_eq_bind, Option.bind_some]
  by_cases hmany : MAX_NATIVE_DISK_CACHE_RESPONSE_HEADERS < headers.length
  · rw [if_pos (.inl hmany), if_neg fun h => by omega]
  rw [if_neg (by rw [length_headerParts]; omega), if_pos ⟨hle, not_lt.1 hmany⟩, takeLengths_eq hlen]
  dsimp only [Option.bind_some]
  rw [takeHeaders_eq]
  rfl

/-! ### Stored responses -/

/-- A response that the store path admits for the disk: its body is within the limit, its tags have
been collected from texts, and its variant fields are those of the `Vary` policy.  What is written
is a vector, so that its length is a `usize`. -/
structure StoredResponse (maxObjectBytes : ℕ) where
  combined : Text
  primary : Text
  userTag : Text
  path : Text
  path_ne_nil : path.1 ≠ []
  tagValues : List Text
  varyValues : List Bytes
  varyRequestHeaders : List Bytes
  varyFields : List Text
  vary_eq : cacheVaryPolicy varyValues varyRequestHeaders = .none ∧ varyFields = [] ∨
    cacheVaryPolicy varyValues varyRequestHeaders = .fields (varyFields.map (·.1))
  now : Clock
  entry : NativeMemoryCacheEntry
  body_le : entry.body.length ≤ maxObjectBytes
  encoded_le : (encodeDiskCacheObject
    ⟨combined, primary, userTag, some path, (collectAll tagValues).tags⟩
    (NativeDiskCacheMeta.fromEntry now entry varyFields).encode
    (nativeDiskResponseHeaderBytes entry.headers) entry.body).length ≤ usizeMax

namespace StoredResponse

variable {maxObjectBytes : ℕ} (r : StoredResponse maxObjectBytes)

/-- The tags that are stored. -/
def cacheTags : List Bytes := (collectAll r.tagValues).tags

/-- What the response is filed under. -/
def key : DiskCacheObjectKey := ⟨r.combined, r.primary, r.userTag, some r.path, r.cacheTags⟩

/-- The metadata, with the times in whole seconds. -/
def metadata : NativeDiskCacheMeta := .fromEntry r.now r.entry r.varyFields

/-- The object as the store path writes it. -/
def encoded : Bytes :=
  encodeDiskCacheObject r.key r.metadata.encode (nativeDiskResponseHeaderBytes r.entry.headers)
    r.entry.body

/-- What the reader counts against the limit of an object. -/
def objectBytes : ℕ := r.metadata.size + headerListSize r.entry.headers + r.entry.body.length

theorem varyFields_length_le : r.varyFields.length ≤ MAX_VARY_FIELDS := by
  rcases r.vary_eq with ⟨-, hnil⟩ | hfields
  · rw [hnil]
    exact Nat.zero_le _
  · have hle := cacheVaryPolicy_length_le hfields
    rwa [length_map] at hle

/-- What is read from the disk is what was stored. -/
structure ReadBack (object : SerializedCacheObject) : Prop where
  parsed : parseDiskCacheObject r.encoded maxObjectBytes = .ok object
  combinedKey : object.combinedKey = some r.combined
  primaryKey : object.primaryKey = some r.primary
  userTag : object.userTag = some r.userTag
  indexPath : object.indexPath = some r.path
  cacheTags : object.cacheTags = r.cacheTags
  body : object.body = r.entry.body
  metadata : NativeDiskCacheMeta.decode object.internalMeta = some r.metadata

/-- The limits of the object and of its metadata. -/
def WithinLimits : Prop :=
  r.objectBytes ≤ maxObjectBytes ∧ r.objectBytes ≤ U32_MAX ∧
    r.metadata.size ≤ MAX_NATIVE_DISK_CACHE_META_BYTES ∧
    r.entry.reason.1.length ≤ MAX_NATIVE_DISK_CACHE_REASON_BYTES

/-- The limits of the header list. -/
def HeadersWithinLimits : Prop :=
  headerListSize r.entry.headers ≤ MAX_NATIVE_DISK_CACHE_META_BYTES ∧
    r.entry.headers.length ≤ MAX_NATIVE_DISK_CACHE_RESPONSE_HEADERS

theorem parse_encoded :
    parseDiskCacheObject r.encoded maxObjectBytes =
      if maxObjectBytes < r.objectBytes then
        .error ⟨.invalidData, "cache object exceeds max object size"⟩
      else if U32_MAX < r.objectBytes then
        .error ⟨.invalidData, "cache object weight exceeds u32"⟩
      else .ok (serialized r.key r.metadata.encode
        (nativeDiskResponseHeaderBytes r.entry.headers) r.entry.body) := by
  have hparse := @parse_encodeDiskCacheObject r.key r.metadata.encode
    (nativeDiskResponseHeaderBytes r.entry.headers) r.entry.body r.path maxObjectBytes rfl
    r.path_ne_nil (decodeCacheTags_collected (collected_collectAll r.tagValues)) r.encoded_le
  rw [NativeDiskCacheMeta.length_encode, length_nativeDiskResponseHeaderBytes] at hparse
  exact hparse

theorem decode_metadata :
    NativeDiskCacheMeta.decode r.metadata.encode = some r.metadata ↔
      r.metadata.size ≤ MAX_NATIVE_DISK_CACHE_META_BYTES ∧
        r.entry.reason.1.length ≤ MAX_NATIVE_DISK_CACHE_REASON_BYTES := by
  have hvary : r.metadata.varyFields.length ≤ MAX_NATIVE_DISK_CACHE_VARY_FIELDS :=
    r.varyFields_length_le.trans (by decide)
  rw [NativeDiskCacheMeta.decode_encode]
  constructor
  · intro h
    by_contra hnot
    rw [if_neg fun hall => hnot ⟨hall.1, hall.2.1⟩] at h
    cases h
  · rintro ⟨hsize, hreason⟩
    rw [if_pos ⟨hsize, hreason, hvary⟩]

theorem readBack_iff {obj : SerializedCacheObject} :
    r.ReadBack obj ↔ r.WithinLimits ∧
      obj = serialized r.key r.metadata.encode (nativeDiskResponseHeaderBytes r.entry.headers)
        r.entry.body := by
  constructor
  · intro h
    have hparsed := h.parsed
    rw [parse_encoded] at hparsed
    split_ifs at hparsed with hmax hu32
    obtain rfl := Except.ok.inj hparsed
    obtain ⟨hsize, hreason⟩ := r.decode_metadata.1 h.metadata
    exact ⟨⟨not_lt.1 hmax, not_lt.1 hu32, hsize, hreason⟩, rfl⟩
  · rintro ⟨⟨hmax, hu32, hsize, hreason⟩, rfl⟩
    refine ⟨?_, rfl, rfl, rfl, rfl, rfl, rfl, r.decode_metadata.2 ⟨hsize, hreason⟩⟩
    rw [parse_encoded, if_neg (not_lt.2 hmax), if_neg (not_lt.2 hu32)]

/-- **An admitted response is read back exactly if its metadata, its header list and its body
together are within the limit of an object and of 32 bits, its metadata has at most 1 MiB, and its
reason at most 1024 bytes.  Its header list is read back as well exactly if that has at most 1 MiB
and 256 headers.** -/
theorem stored_response_read_back_iff (maxObjectBytes : ℕ) (r : StoredResponse maxObjectBytes) :
    ((∃ object, r.ReadBack object) ↔ r.WithinLimits) ∧
    ((∃ object, r.ReadBack object ∧
        nativeDiskResponseHeaders object.responseHeader = some r.entry.headers) ↔
      r.WithinLimits ∧ r.HeadersWithinLimits) := by
  constructor
  · constructor
    · rintro ⟨object, h⟩
      exact (r.readBack_iff.1 h).1
    · intro h
      exact ⟨_, r.readBack_iff.2 ⟨h, rfl⟩⟩
  · have hheaders : nativeDiskResponseHeaders (nativeDiskResponseHeaderBytes r.entry.headers) =
        some r.entry.headers ↔ r.HeadersWithinLimits := by
      rw [headers_round_trip, HeadersWithinLimits]
      constructor
      · intro h
        by_contra hnot
        rw [if_neg hnot] at h
        cases h
      · intro h
        rw [if_pos h]
    constructor
    · rintro ⟨object, h, hread⟩
      obtain ⟨hlimit, rfl⟩ := r.readBack_iff.1 h
      exact ⟨hlimit, hheaders.1 hread⟩
    · rintro ⟨hlimit, hread⟩
      exact ⟨_, r.readBack_iff.2 ⟨hlimit, rfl⟩, hheaders.2 hread⟩

/-- A response whose body is as long as the limit. -/
def fullBody : StoredResponse 4 where
  combined := ⟨ascii "fluxheim-image-v1;path:6:/a.png;", by decide⟩
  primary := ⟨ascii "fluxheim-image-v1;path:6:/a.png;", by decide⟩
  userTag := ⟨ascii "site", by decide⟩
  path := ⟨ascii "/a.png", Eq.refl true⟩
  path_ne_nil := by decide
  tagValues := [⟨ascii "article:1 news", by decide⟩]
  varyValues := []
  varyRequestHeaders := []
  varyFields := []
  vary_eq := by decide
  now := ⟨0, UNIX_EPOCH⟩
  entry :=
    { NativeMemoryCacheEntry.empty with
      headers := [(⟨ascii "cache-control", by decide⟩, ⟨ascii "max-age=60", by decide⟩)]
      contentLength := some ⟨4, by decide⟩
      body := [1, 10, 2, 3]
      expiresAt := 60000000000
      weight := ⟨100, by decide⟩ }
  body_le := by decide
  encoded_le := by decide +kernel

/-- It is admitted, and what is written is not read: the reader counts the metadata and the header
list as well. -/
theorem fullBody_not_read_back :
    fullBody.entry.body.length ≤ 4 ∧
      (match parseDiskCacheObject fullBody.encoded 4 with
        | .ok _ => none
        | .error e => some e) =
        some ⟨.invalidData, "cache object exceeds max object size"⟩ := by
  decide +kernel

end StoredResponse

end Fluxheim.Cache
