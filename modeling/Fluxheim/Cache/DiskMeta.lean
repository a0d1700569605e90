import Fluxheim.Cache.StorageBinIndex

/-!
# The metadata of a disk object

Beside its body, an object on disk holds the status line, the times and the variant fields of the
response, and its header list.  Both are a head of numbers on lines and the texts of these lengths.
Older versions lack the last fields.
-/

namespace Fluxheim.Cache

open Ascii

/-- A number of `w` bits, as `str::parse` reads it. -/
def parseNumber (w : ℕ) (x : Bytes) : Option (Fin (2 ^ w)) :=
  (parseUnsigned (2 ^ w - 1) x).bind fun n => if h : n < 2 ^ w then some ⟨n, h⟩ else none

/-- A SHA-256 digest. -/
abbrev Digest := { x : Bytes // x.length = 32 }

/-- Thirty-two zeros. -/
def Digest.zero : Digest := ⟨List.replicate 32 0, by decide⟩

/-- A number, or a dash for none. -/
def nativeDiskMetaOptionalU64 (value : Bytes) : Option (Option (Fin (2 ^ 64))) :=
  if value = [45] then some none else (parseNumber 64 value).map some

/-- A digest, or a dash for none. -/
def nativeDiskMetaOptionalSha256 (value : Bytes) : Option (Option Digest) :=
  if value = [45] then some none
  else if value.length ≠ 64 then none
  else (hexDecode value).bind fun digest =>
    if h : digest.length = 32 then some (some ⟨digest, h⟩) else none

/-- Whether stale reuse is forbidden, if that is known. -/
def nativeDiskMetaStaleFlag (value : Bytes) : Option (Option Bool) :=
  if value = [49] then some (some true)
  else if value = [48] then some (some false)
  else if value = [45] then some none
  else none

/-- An optional line: a dash stands for nothing. -/
def optionalLine {α : Type} (encode : α → Bytes) : Option α → Bytes
  | none => [45]
  | some a => encode a

/-- A response header. -/
abbrev Header := Text × Text

/-- A response in the cache.  Instants are nanoseconds of the monotonic clock. -/
structure NativeMemoryCacheEntry where
  status : Fin (2 ^ 16)
  reason : Text
  headers : List Header
  contentLength : Option (Fin (2 ^ 64))
  body : Bytes
  bodySha256 : Digest
  expiresAt : ℤ
  staleWhileRevalidateUntil : Option ℤ
  staleIfErrorUntil : Option ℤ
  staleReuseForbidden : Bool
  storedAt : ℤ
  weight : Fin (2 ^ 64)

/-- A response without headers and a body. -/
def NativeMemoryCacheEntry.empty : NativeMemoryCacheEntry where
  status := 200
  reason := ⟨ascii "OK", by decide⟩
  headers := []
  contentLength := none
  body := []
  bodySha256 := .zero
  expiresAt := 0
  staleWhileRevalidateUntil := none
  staleIfErrorUntil := none
  staleReuseForbidden := false
  storedAt := 0
  weight := ⟨0, by decide⟩

/-- Nanoseconds since the epoch, with the seconds in 64 bits and a sign. -/
abbrev SystemTime := { t : ℤ // -2 ^ 63 ≤ t / NANOS ∧ t / NANOS < 2 ^ 63 }

/-- A reading of both clocks. -/
structure Clock where
  instant : ℤ
  system : SystemTime

/-- `SystemTime::checked_add` and `SystemTime::checked_sub`. -/
def SystemTime.checkedAdd (t : SystemTime) (nanos : ℤ) : Option SystemTime :=
  if h : -2 ^ 63 ≤ (t.1 + nanos) / NANOS ∧ (t.1 + nanos) / NANOS < 2 ^ 63 then some ⟨_, h⟩ else none

/-- The seconds since the epoch; a time before it counts as the epoch. -/
def SystemTime.unixSecs (t : SystemTime) : Fin (2 ^ 64) :=
  ⟨(t.1 / NANOS).toNat, by have := t.2; omega⟩

def UNIX_EPOCH : SystemTime := ⟨0, by decide⟩

/-- The Unix time of an instant, by the clock's two readings. -/
def nativeInstantToUnixSecs (now : Clock) (instant : ℤ) : Fin (2 ^ 64) :=
  let system :=
    if now.instant ≤ instant then
      (SystemTime.checkedAdd now.system (instant - now.instant)).getD now.system
    else (SystemTime.checkedAdd now.system (instant - now.instant)).getD UNIX_EPOCH
  system.unixSecs

def MAX_NATIVE_DISK_CACHE_META_BYTES : ℕ := 1024 * 1024
def MAX_NATIVE_DISK_CACHE_VARY_FIELDS : ℕ := 64
def MAX_NATIVE_DISK_CACHE_RESPONSE_HEADERS : ℕ := 256
def MAX_NATIVE_DISK_CACHE_REASON_BYTES : ℕ := 1024

/-- The metadata of a response. -/
structure NativeDiskCacheMeta where
  status : Fin (2 ^ 16)
  reason : Text
  contentLength : Option (Fin (2 ^ 64))
  expiresAtUnixSecs : Fin (2 ^ 64)
  staleWhileRevalidateUntilUnixSecs : Option (Fin (2 ^ 64))
  staleIfErrorUntilUnixSecs : Option (Fin (2 ^ 64))
  storedAtUnixSecs : Fin (2 ^ 64)
  bodySha256 : Option Digest
  staleReuseForbidden : Option Bool
  varyFields : List Text

namespace NativeDiskCacheMeta

/-- The metadata of a cached response, with times in Unix seconds. -/
def fromEntry (now : Clock) (entry : NativeMemoryCacheEntry) (varyFields : List Text) :
    NativeDiskCacheMeta where
  status := entry.status
  reason := entry.reason
  contentLength := entry.contentLength
  expiresAtUnixSecs := nativeInstantToUnixSecs now entry.expiresAt
  staleWhileRevalidateUntilUnixSecs :=
    entry.staleWhileRevalidateUntil.map (nativeInstantToUnixSecs now)
  staleIfErrorUntilUnixSecs := entry.staleIfErrorUntil.map (nativeInstantToUnixSecs now)
  storedAtUnixSecs := nativeInstantToUnixSecs now entry.storedAt
  bodySha256 := some entry.bodySha256
  staleReuseForbidden := some entry.staleReuseForbidden
  varyFields := varyFields

/-- The lines of the head. -/
def headLines (m : NativeDiskCacheMeta) : List Bytes :=
  [ascii "FLUXHEIM-NATIVE-PROXY-CACHE-v3", decimal m.status.1, decimal m.reason.1.length,
    optionalLine (fun n : Fin (2 ^ 64) => decimal n.1) m.contentLength,
    decimal m.expiresAtUnixSecs.1,
    optionalLine (fun n : Fin (2 ^ 64) => decimal n.1) m.staleWhileRevalidateUntilUnixSecs,
    optionalLine (fun n : Fin (2 ^ 64) => decimal n.1) m.staleIfErrorUntilUnixSecs,
    decimal m.storedAtUnixSecs.1,
    optionalLine (fun digest : Digest => hexEncode digest.1) m.bodySha256,
    optionalLine (fun forbidden : Bool => if forbidden then [49] else [48]) m.staleReuseForbidden,
    decimal m.varyFields.length]

/-- The metadata as bytes. -/
def encode (m : NativeDiskCacheMeta) : Bytes :=
  terminated m.headLines ++
    (terminated (m.varyFields.map fun field => decimal field.1.length) ++
      (m.reason.1 ++ (m.varyFields.map (·.1)).flatten))

/-- The version of a first line. -/
def version (magic : Bytes) : Option ℕ :=
  if magic = ascii "FLUXHEIM-NATIVE-PROXY-CACHE-v1" then some 1
  else if magic = ascii "FLUXHEIM-NATIVE-PROXY-CACHE-v2" then some 2
  else if magic = ascii "FLUXHEIM-NATIVE-PROXY-CACHE-v3" then some 3
  else none

/-- The texts after the head. -/
def decodeTexts (reasonLen varyCount : ℕ) (rest : Bytes) : Option (Text × List Text) :=
  if MAX_NATIVE_DISK_CACHE_VARY_FIELDS < varyCount ∨ rest.length < varyCount then none
  else do
    let (varyLens, rest) ← takeFields (parseNumber 64) varyCount rest
    let (reason, rest) ← takeText reasonLen rest
    let (varyFields, rest) ← takeTexts (varyLens.map (·.1)) rest
    if rest = [] then some (reason, varyFields) else none

/-- The metadata, read back. -/
def decode (bytes : Bytes) : Option NativeDiskCacheMeta :=
  if MAX_NATIVE_DISK_CACHE_META_BYTES < bytes.length then none
  else do
    let (version, rest) ← takeField version bytes
    let (status, rest) ← takeField (parseNumber 16) rest
    let (reasonLen, rest) ← takeField (parseNumber 64) rest
    if MAX_NATIVE_DISK_CACHE_REASON_BYTES < reasonLen.1 then none
    else
      let (contentLength, rest) ← takeField nativeDiskMetaOptionalU64 rest
      let (expiresAtUnixSecs, rest) ← takeField (parseNumber 64) rest
      let (staleWhileRevalidateUntilUnixSecs, rest) ← takeField nativeDiskMetaOptionalU64 rest
      let (staleIfErrorUntilUnixSecs, rest) ← takeField nativeDiskMetaOptionalU64 rest
      let (storedAtUnixSecs, rest) ← takeField (parseNumber 64) rest
      let (bodySha256, rest) ←
        if 2 ≤ version then takeField nativeDiskMetaOptionalSha256 rest else some (none, rest)
      let (staleReuseForbidden, rest) ←
        if 3 ≤ version then takeField nativeDiskMetaStaleFlag rest else some (none, rest)
      let (varyCount, rest) ← takeField (parseNumber 64) rest
      let (reason, varyFields) ← decodeTexts reasonLen.1 varyCount.1 rest
      some
        { status, reason, contentLength, expiresAtUnixSecs, staleWhileRevalidateUntilUnixSecs,
          staleIfErrorUntilUnixSecs, storedAtUnixSecs, bodySha256, staleReuseForbidden, varyFields }

end NativeDiskCacheMeta

/-- The header list as bytes. -/
def nativeDiskResponseHeaderBytes (headers : List Header) : Bytes :=
  terminated (decimal headers.length ::
      headers.flatMap fun header => [decimal header.1.1.length, decimal header.2.1.length]) ++
    headers.flatMap fun header => header.1.1 ++ header.2.1

/-- The lengths of the names and values. -/
def takeLengths : ℕ → Bytes → Option (List (ℕ × ℕ) × Bytes)
  | 0, x => some ([], x)
  | n + 1, x => do
      let (nameLen, x) ← takeField (parseNumber 64) x
      let (valueLen, x) ← takeField (parseNumber 64) x
      let (lens, x) ← takeLengths n x
      some ((nameLen.1, valueLen.1) :: lens, x)

/-- The names and values of these lengths. -/
def takeHeaders : List (ℕ × ℕ) → Bytes → Option (List Header × Bytes)
  | [], x => some ([], x)
  | (nameLen, valueLen) :: lens, x => do
      let (name, x) ← takeText nameLen x
      let (value, x) ← takeText valueLen x
      let (headers, x) ← takeHeaders lens x
      some ((name, value) :: headers, x)

/-- The header list, read back. -/
def nativeDiskResponseHeaders (bytes : Bytes) : Option (List Header) :=
  if MAX_NATIVE_DISK_CACHE_META_BYTES < bytes.length then none
  else do
    let (count, rest) ← takeField (parseNumber 64) bytes
    if MAX_NATIVE_DISK_CACHE_RESPONSE_HEADERS < count.1 ∨ rest.length < count.1 then none
    else
      let (lens, rest) ← takeLengths count.1 rest
      let (headers, rest) ← takeHeaders lens rest
      if rest = [] then some headers else none

end Fluxheim.Cache
