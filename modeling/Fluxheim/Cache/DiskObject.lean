import Fluxheim.Cache.StorageBinIndex

/-!
# Objects of the disk cache

An object on disk is a head of lengths, one on each line, and the parts of these lengths: the keys,
the tags, the path, the metadata, the response header and the body.  A reader keeps what is left of
the bytes; the offset of the source is what it has taken off.
-/

namespace Fluxheim.Cache

open Ascii

def MAX_CACHE_TAGS_PER_OBJECT : ℕ := 64
def MAX_CACHE_TAG_LEN : ℕ := 128
def MAX_CACHE_TAG_BYTES_PER_OBJECT : ℕ := 4096

/-- The bytes of a tag. -/
def tagByte (b : UInt8) : Bool :=
  isAlphanumeric b || b == 95 || b == 45 || b == 46 || b == 58 || b == 47 || b == 61

/-- A tag that is kept. -/
def isValidCacheTag (tag : Bytes) : Bool :=
  tag ≠ [] && tag.length ≤ MAX_CACHE_TAG_LEN && tag.all tagByte

/-- The number of bytes of the comma or the white space at the head of a text.  White space is that
of Unicode, in UTF-8. -/
def tagSeparatorLength : Bytes → ℕ
  | 0xe1 :: 0x9a :: 0x80 :: _ => 3
  | 0xe2 :: 0x80 :: b :: _ =>
    if 0x80 ≤ b && b ≤ 0x8a || b == 0xa8 || b == 0xa9 || b == 0xaf then 3 else 0
  | 0xe2 :: 0x81 :: 0x9f :: _ => 3
  | 0xe3 :: 0x80 :: 0x80 :: _ => 3
  | 0xc2 :: 0x85 :: _ => 2
  | 0xc2 :: 0xa0 :: _ => 2
  | b :: _ => if b == 44 || isSpace b then 1 else 0
  | [] => 0

/-- The text cut at every separator; `skip` bytes of one are still to be passed over. -/
def tagCandidates : ℕ → Bytes → Bytes → List Bytes
  | _, candidate, [] => [candidate]
  | skip + 1, candidate, _ :: x => tagCandidates skip candidate x
  | 0, candidate, b :: x =>
    match tagSeparatorLength (b :: x) with
    | 0 => tagCandidates 0 (candidate ++ [b]) x
    | n + 1 => candidate :: tagCandidates n [] x

/-- The tags collected so far, and their bytes. -/
structure CacheTags where
  tags : List Bytes
  totalBytes : ℕ

/-- The candidates that are tags, until there are enough of them. -/
def collectCandidates : List Bytes → CacheTags → CacheTags
  | [], s => s
  | candidate :: rest, s =>
    if MAX_CACHE_TAGS_PER_OBJECT ≤ s.tags.length ∨
        MAX_CACHE_TAG_BYTES_PER_OBJECT ≤ s.totalBytes then s
    else if isValidCacheTag candidate = false ∨ candidate ∈ s.tags then collectCandidates rest s
    else if MAX_CACHE_TAG_BYTES_PER_OBJECT < s.totalBytes + candidate.length then s
    else collectCandidates rest ⟨s.tags ++ [candidate], s.totalBytes + candidate.length⟩

theorem collectCandidates_cons (candidate : Bytes) (rest : List Bytes) (s : CacheTags) :
    collectCandidates (candidate :: rest) s =
      if MAX_CACHE_TAGS_PER_OBJECT ≤ s.tags.length ∨
          MAX_CACHE_TAG_BYTES_PER_OBJECT ≤ s.totalBytes then s
      else if isValidCacheTag candidate = false ∨ candidate ∈ s.tags then collectCandidates rest s
      else if MAX_CACHE_TAG_BYTES_PER_OBJECT < s.totalBytes + candidate.length then s
      else collectCandidates rest ⟨s.tags ++ [candidate], s.totalBytes + candidate.length⟩ :=
  rfl

/-- The tags of one header value. -/
def collectCacheTags (value : Bytes) (s : CacheTags) : CacheTags :=
  collectCandidates (tagCandidates 0 [] value) s

/-- The tags on lines. -/
def encodeCacheTags (tags : List Bytes) : Bytes := [10].intercalate tags

variable (bytes : Bytes)

/-- The tags, read back. -/
def decodeCacheTags : Except IoError (List Bytes) :=
  if bytes = [] then .ok []
  else if utf8Valid bytes = false then .error ⟨.invalidData, "cache tags"⟩
  else .ok (collectCacheTags bytes ⟨[], 0⟩).tags

def DISK_CACHE_MAGIC_V1 : Bytes := ascii "FLUXHEIM-CACHE-v1\n"
/-- Version 2 has the primary key. -/
def DISK_CACHE_MAGIC_V2 : Bytes := ascii "FLUXHEIM-CACHE-v2\n"
/-- Version 3 has the combined key and the user tag. -/
def DISK_CACHE_MAGIC_V3 : Bytes := ascii "FLUXHEIM-CACHE-v3\n"
def DISK_CACHE_MAGIC_V4 : Bytes := ascii "FLUXHEIM-CACHE-v4\n"
def DISK_CACHE_MAGIC_V5 : Bytes := ascii "FLUXHEIM-CACHE-v5\n"

/-- What an object is filed under. -/
structure DiskCacheObjectKey where
  combined : Text
  primary : Text
  userTag : Text
  indexPath : Option Text
  cacheTags : List Bytes

/-- An object as it is read. -/
structure SerializedCacheObject where
  combinedKey : Option Text
  primaryKey : Option Text
  userTag : Option Text
  indexPath : Option Text
  cacheTags : List Bytes
  internalMeta : Bytes
  responseHeader : Bytes
  body : Bytes
  weight : ℕ

variable (key : DiskCacheObjectKey)

/-- The bytes of the path of a key. -/
def DiskCacheObjectKey.path : Bytes :=
  (key.indexPath.map (·.1)).getD []

/-- The head of lengths and the parts before the body. -/
def diskCacheObjectPlaintextPrefix (internalMeta responseHeader : Bytes) (bodyLen : ℕ) : Bytes :=
  DISK_CACHE_MAGIC_V5 ++
    (terminated (([key.combined.1.length, key.primary.1.length, key.userTag.1.length,
      (encodeCacheTags key.cacheTags).length, key.path.length, internalMeta.length,
      responseHeader.length, bodyLen] : List ℕ).map decimal) ++
    (key.combined.1 ++ (key.primary.1 ++ (key.userTag.1 ++ (encodeCacheTags key.cacheTags ++
      (key.path ++ (internalMeta ++ responseHeader)))))))

/-- An object as bytes. -/
def encodeDiskCacheObject (internalMeta responseHeader body : Bytes) : Bytes :=
  diskCacheObjectPlaintextPrefix key internalMeta responseHeader body.length ++ body

/-- The version of the format, and what is left after its mark. -/
def diskCacheFormat : Option (ℕ × Bytes) :=
  if DISK_CACHE_MAGIC_V5 <+: bytes then some (5, bytes.drop DISK_CACHE_MAGIC_V5.length)
  else if DISK_CACHE_MAGIC_V4 <+: bytes then some (4, bytes.drop DISK_CACHE_MAGIC_V4.length)
  else if DISK_CACHE_MAGIC_V3 <+: bytes then some (3, bytes.drop DISK_CACHE_MAGIC_V3.length)
  else if DISK_CACHE_MAGIC_V2 <+: bytes then some (2, bytes.drop DISK_CACHE_MAGIC_V2.length)
  else if DISK_CACHE_MAGIC_V1 <+: bytes then some (1, bytes.drop DISK_CACHE_MAGIC_V1.length)
  else none

/-- A length of the head, and what is left after its line. -/
def parseDiskCacheLen (rest : Bytes) : Except IoError (ℕ × Bytes) :=
  match Search.splitOnce 10 rest with
  | none => .error ⟨.invalidData, "cache object header missing newline"⟩
  | some (line, rest) =>
    if utf8Valid line = false then
      .error ⟨.invalidData, "cache object header length is not utf-8"⟩
    else
      match parseUnsigned usizeMax line with
      | none => .error ⟨.invalidData, "cache object header length is invalid"⟩
      | some len => .ok (len, rest)

/-- A length that only some versions of the format have. -/
def parseDiskCacheLenIf (present : Bool) (rest : Bytes) : Except IoError (ℕ × Bytes) :=
  if present then parseDiskCacheLen rest else .ok (0, rest)

/-- The sum of numbers, as long as it is below `2 ^ 64`. -/
def checkedSum (start : ℕ) (lens : List ℕ) : Option ℕ :=
  lens.foldl (fun sum len => sum.bind fun sum => checkedAdd sum len) (some start)

/-- A part that is to be text. -/
def cacheObjectUtf8 (field : String) : Except IoError Text :=
  if h : utf8Valid bytes = true then .ok ⟨bytes, h⟩ else .error ⟨.invalidData, field⟩

/-- A text that only some versions of the format have. -/
def cacheObjectUtf8If (present : Bool) (bytes : Bytes) (field : String) :
    Except IoError (Option Text) :=
  if present then (cacheObjectUtf8 bytes field).map some else .ok none

def U32_MAX : ℕ := 2 ^ 32 - 1

/-- The parts of an object, after its head. -/
def parseDiskCacheParts (version : ℕ) (combinedKeyLen primaryKeyLen userTagLen cacheTagsLen
    indexPathLen internalMetaLen responseHeaderLen weight : ℕ) (rest : Bytes) :
    Except IoError SerializedCacheObject := do
  let combinedKey ← cacheObjectUtf8If (3 ≤ version) (rest.take combinedKeyLen) "combined key"
  let rest := rest.drop combinedKeyLen
  let primaryKey ← cacheObjectUtf8If (2 ≤ version) (rest.take primaryKeyLen) "primary key"
  let rest := rest.drop primaryKeyLen
  let userTag ← cacheObjectUtf8If (3 ≤ version) (rest.take userTagLen) "user tag"
  let rest := rest.drop userTagLen
  let cacheTags ← if 4 ≤ version then decodeCacheTags (rest.take cacheTagsLen) else .ok []
  let rest := rest.drop cacheTagsLen
  let indexPath ← cacheObjectUtf8If (5 ≤ version) (rest.take indexPathLen) "index path"
  let rest := rest.drop indexPathLen
  .ok
    { combinedKey, primaryKey, userTag, cacheTags
      indexPath := indexPath.filter fun path => path.1 ≠ []
      internalMeta := rest.take internalMetaLen
      responseHeader := (rest.drop internalMetaLen).take responseHeaderLen
      body := (rest.drop internalMetaLen).drop responseHeaderLen
      weight }

/-- An object, read back. -/
def parseDiskCacheObject (maxObjectBytes : ℕ) : Except IoError SerializedCacheObject := do
  let (version, rest) ←
    Fallible.okOr (diskCacheFormat bytes) ⟨.invalidData, "invalid cache object magic"⟩
  let (combinedKeyLen, rest) ← parseDiskCacheLenIf (3 ≤ version) rest
  let (primaryKeyLen, rest) ← parseDiskCacheLenIf (2 ≤ version) rest
  let (userTagLen, rest) ← parseDiskCacheLenIf (3 ≤ version) rest
  let (cacheTagsLen, rest) ← parseDiskCacheLenIf (4 ≤ version) rest
  let (indexPathLen, rest) ← parseDiskCacheLenIf (5 ≤ version) rest
  let (internalMetaLen, rest) ← parseDiskCacheLen rest
  let (responseHeaderLen, rest) ← parseDiskCacheLen rest
  let (bodyLen, rest) ← parseDiskCacheLen rest
  let objectBytes := saturatingAdd (saturatingAdd internalMetaLen responseHeaderLen) bodyLen
  if maxObjectBytes < objectBytes then
    .error ⟨.invalidData, "cache object exceeds max object size"⟩
  else
    match checkedSum (bytes.length - rest.length) [combinedKeyLen, primaryKeyLen, userTagLen,
        cacheTagsLen, indexPathLen, internalMetaLen, responseHeaderLen, bodyLen] with
    | none => .error ⟨.invalidData, "cache object size overflow"⟩
    | some totalLen =>
      if totalLen ≠ bytes.length then
        .error ⟨.invalidData, "cache object length mismatch"⟩
      else if U32_MAX < objectBytes then
        .error ⟨.invalidData, "cache object weight exceeds u32"⟩
      else
        parseDiskCacheParts version combinedKeyLen primaryKeyLen userTagLen cacheTagsLen
          indexPathLen internalMetaLen responseHeaderLen objectBytes rest

end Fluxheim.Cache
