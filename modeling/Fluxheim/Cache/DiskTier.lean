import Fluxheim.Cache.DiskMeta
import Fluxheim.Cache.DiskObject
import Fluxheim.Cache.DiskState

/-!
# The disk cache in bins

The tables of the disk cache, the map of the free ranges, and the files of the bins: stores, lookups
and evictions, and a start from the index and the files.  A read that fails has the same effect
whatever the error, which is only logged.
-/

namespace Fluxheim.Cache

open Ascii
open scoped ByteOrder

def NATIVE_DISK_CACHE_ENCRYPTED_MAGIC_V1 : Bytes := ascii "FLUXHEIM-CACHE-ENC-v1\n"
def NATIVE_DISK_CACHE_ENCRYPTED_MAGIC_V2 : Bytes := ascii "FLUXHEIM-CACHE-ENC-v2\n"

/-- Encryption at rest; `encrypt` is given the random bytes that it draws. -/
structure NativeDiskCacheEncryption where
  confidentialIndexIdentity : Text → Text
  encrypt : Bytes → Text → Bytes → Except IoError Bytes
  decrypt : Bytes → Except IoError Bytes

/-- A cache.  Its limit is that of the bins. -/
structure NativeDiskCache where
  layout : StorageBinLayoutPlan
  maxObjectBytes : ℕ
  encryption : Option NativeDiskCacheEncryption
  /-- SHA-256. -/
  bodySha256 : Bytes → Digest
  /-- Whether the headers of a response forbid that it is used when it is stale. -/
  staleReuseForbidden : List Header → Bool

/-- The size of the cache. -/
def NativeDiskCache.maxBytes (cache : NativeDiskCache) : ℕ := cache.layout.maxSizeBytes

/-- `Instant::checked_add` and `Instant::checked_sub`, with the seconds in 64 bits and a sign. -/
def instantCheckedAdd (instant nanos : ℤ) : Option ℤ :=
  if -2 ^ 63 ≤ (instant + nanos) / NANOS ∧ (instant + nanos) / NANOS < 2 ^ 63 then
    some (instant + nanos)
  else none

/-- The instant of a Unix time. -/
def nativeUnixSecsToInstant (secs : Fin (2 ^ 64)) (now : Clock) : ℤ :=
  let target := ((SystemTime.checkedAdd UNIX_EPOCH (secs.1 * NANOS)).getD UNIX_EPOCH).1
  (instantCheckedAdd now.instant (target - now.system.1)).getD now.instant

/-- The entry may still be served stale. -/
def nativeCacheEntryHasStaleWindow (entry : NativeMemoryCacheEntry) (now : ℤ) : Bool :=
  !entry.staleReuseForbidden &&
    (entry.staleWhileRevalidateUntil.any (now < ·) || entry.staleIfErrorUntil.any (now < ·))

namespace NativeDiskCache

variable (cache : NativeDiskCache)

/-- The response of an object, unless it is past its time. -/
def nativeMemoryEntryFromDiskObject (now : Clock) (object : SerializedCacheObject) :
    Option NativeMemoryCacheEntry := do
  let decoded ← NativeDiskCacheMeta.decode object.internalMeta
  let headers ← nativeDiskResponseHeaders object.responseHeader
  let entry : NativeMemoryCacheEntry :=
    { status := decoded.status
      reason := decoded.reason
      headers
      contentLength := decoded.contentLength
      body := object.body
      bodySha256 := decoded.bodySha256.getD (cache.bodySha256 object.body)
      expiresAt := nativeUnixSecsToInstant decoded.expiresAtUnixSecs now
      staleWhileRevalidateUntil :=
        decoded.staleWhileRevalidateUntilUnixSecs.map (nativeUnixSecsToInstant · now)
      staleIfErrorUntil := decoded.staleIfErrorUntilUnixSecs.map (nativeUnixSecsToInstant · now)
      staleReuseForbidden := decoded.staleReuseForbidden.getD (cache.staleReuseForbidden headers)
      storedAt := nativeUnixSecsToInstant decoded.storedAtUnixSecs now
      weight := Fin.ofNat (2 ^ 64) object.weight }
  if entry.expiresAt ≤ now.instant ∧ nativeCacheEntryHasStaleWindow entry now.instant = false then
    none
  else some entry

/-- The plain object. -/
def decryptIfNeeded (bytes : Bytes) : Option Bytes :=
  match cache.encryption with
  | some encryption => (encryption.decrypt bytes).toOption
  | none =>
    if NATIVE_DISK_CACHE_ENCRYPTED_MAGIC_V1 <+: bytes ∨
        NATIVE_DISK_CACHE_ENCRYPTED_MAGIC_V2 <+: bytes then none
    else some bytes

/-- The key of an object in the index. -/
def expectedIndexKey (combined : Text) : Text :=
  match cache.encryption with
  | some encryption => encryption.confidentialIndexIdentity combined
  | none => combined

/-- The bytes that a store writes. -/
def encodeObject (now : Clock) (nonce : Bytes) (key : NativeDiskCacheStoreKey)
    (entry : NativeMemoryCacheEntry) : Except IoError Bytes :=
  let encoded := encodeDiskCacheObject
    ⟨key.combined, key.primary, key.userTag, key.indexPath, key.cacheTags⟩
    (NativeDiskCacheMeta.fromEntry now entry key.varyFields).encode
    (nativeDiskResponseHeaderBytes entry.headers) entry.body
  match cache.encryption with
  | some encryption => encryption.encrypt nonce key.combined encoded
  | none => .ok encoded

end NativeDiskCache

/-- The contents of the bins. -/
abbrev BinFiles := AList fun _ : ℕ => Bytes

/-- The number of bins. -/
def StorageBinLayoutPlan.maxBins (layout : StorageBinLayoutPlan) : ℕ :=
  if layout.binSizeBytes = 0 then 0
  else (layout.maxSizeBytes + layout.binSizeBytes - 1) / layout.binSizeBytes

/-- The bytes at a place. -/
def readObject (layout : StorageBinLayoutPlan) (files : BinFiles)
    (location : StorageBinObjectLocation) : Option Bytes := do
  let location ← (location.validate layout.binSizeBytes).toOption
  if layout.maxBins ≤ location.binId then none
  else
    let file ← files.lookup location.binId
    if location.offset + location.len ≤ file.length then
      some ((file.drop location.offset).take location.len)
    else none

/-- Bytes written at an offset; a hole before them reads as zeros. -/
def writeRange (file : Bytes) (offset : ℕ) (bytes : Bytes) : Bytes :=
  file.take offset ++ (List.replicate (offset - file.length) 0 ++
    (bytes ++ file.drop (offset + bytes.length)))

/-- The bytes are written at a place. -/
def writeObject (files : BinFiles) (location : StorageBinObjectLocation) (bytes : Bytes) :
    BinFiles :=
  files.insert location.binId
    (writeRange ((files.lookup location.binId).getD []) location.offset bytes)

/-! ### The tier -/

/-- The tables, the map and the files. -/
structure StorageBinTier where
  state : NativeDiskCacheState StorageBinObjectLocation
  freeMap : StorageBinFreeMap
  files : BinFiles

namespace StorageBinTier

variable (cache : NativeDiskCache) (t : StorageBinTier)

/-- The callers pass over an error. -/
def releaseStorageBinLocation (location : StorageBinObjectLocation) : StorageBinTier :=
  match t.freeMap.release location with
  | .error _ => t
  | .ok map =>
    let (reclaimed, map) := map.reclaimFreeTailBins
    { t with
      freeMap := map
      files := reclaimed.foldl (fun files binId => files.erase binId) t.files }

/-- An object goes, and its place is free. -/
def removeCombined (combinedKey : Text) : Bool × StorageBinTier :=
  match t.state.removeCombined combinedKey with
  | (none, state) => (false, { t with state })
  | (some record, state) =>
    (true, releaseStorageBinLocation { t with state } record.location)

/-- The oldest object goes. -/
def evictOldest : Bool × StorageBinTier :=
  match t.state.oldestKey with
  | none => (false, t)
  | some key => t.removeCombined key

/-- The loops that evict an object after every attempt that comes to nothing, until there is none
left; `n` bounds the number of attempts. -/
def evictUntil {α : Type} (attempt : StorageBinTier → Except IoError (Option α) × StorageBinTier) :
    ℕ → StorageBinTier → Except IoError (Option α) × StorageBinTier
  | 0, t => (.ok none, t)
  | n + 1, t =>
    match attempt t with
    | (.ok none, t) =>
      match t.evictOldest with
      | (false, t) => (.ok none, t)
      | (true, t) => evictUntil attempt n t
    | done => done

/-- One attempt more than there are objects; `evictUntil_of_le` says that this is enough. -/
def attempts : ℕ := t.state.objects.entries.length + 1

/-- A test as an attempt. -/
def passes (test : StorageBinTier → Bool) (t : StorageBinTier) :
    Except IoError (Option Unit) × StorageBinTier :=
  (.ok (if test t then some () else none), t)

/-- Objects go until there is room for the weight. -/
def evictUntilAdmissible (incomingKey : Text) (incomingWeight : ℕ) :
    Except IoError (Option Unit) × StorageBinTier :=
  if cache.maxBytes < incomingWeight then (.ok none, t)
  else
    evictUntil (passes fun t => t.state.keyAdmissible incomingKey incomingWeight cache.maxBytes)
      t.attempts t

/-- Objects go until the cache is within its size. -/
def prune : StorageBinTier :=
  (evictUntil (passes fun t => t.state.bytes ≤ cache.maxBytes) t.attempts t).2

/-- A place, for which objects may have to go. -/
def allocateStorageBinLocation (len : ℕ) :
    Except IoError (Option StorageBinObjectLocation) × StorageBinTier :=
  evictUntil
    (fun t =>
      let (allocation, freeMap) := t.freeMap.allocate len
      (allocation, { t with freeMap }))
    t.attempts t

/-- A store of encoded bytes.  As calls do not overlap, the second test of the weight is that of the
last state of the loop before it.  The lock of the key's stripe is left out, and with it that the
source waits for itself where the eviction for the new object meets a key of the same stripe. -/
def storeEncoded (now : Clock) (key : NativeDiskCacheStoreKey) (encoded : Bytes) :
    Except IoError Unit × StorageBinTier :=
  match t.evictUntilAdmissible cache key.combined encoded.length with
  | (.error e, t) => (.error e, t)
  | (.ok none, t) => (.ok (), t)
  | (.ok (some ()), t) =>
    match (t.removeCombined key.combined).2.allocateStorageBinLocation encoded.length with
    | (.error e, t) => (.error e, t)
    | (.ok none, t) => (.ok (), t)
    | (.ok (some location), t) =>
      (.ok (),
        { t with
          state := t.state.insertStored key location encoded.length now.system.1
          files := writeObject t.files location encoded })

/-- A store. -/
def storeInner (now : Clock) (nonce : Bytes) (key : NativeDiskCacheStoreKey)
    (entry : NativeMemoryCacheEntry) : Except IoError Unit × StorageBinTier :=
  match cache.encodeObject now nonce key entry with
  | .error e => (.error e, t)
  | .ok encoded => t.storeEncoded cache now key encoded

/-- The object of a record. -/
def readRecord (record : NativeDiskCacheRecord StorageBinObjectLocation) :
    Option SerializedCacheObject := do
  let bytes ← readObject cache.layout t.files record.location
  let bytes ← cache.decryptIfNeeded bytes
  (parseDiskCacheObject bytes cache.maxObjectBytes).toOption

/-- A lookup by the combined key. -/
def getCombined (now : Clock) (combinedKey : Text) :
    Option NativeMemoryCacheEntry × StorageBinTier :=
  match t.state.objects.lookup combinedKey with
  | none => (none, t)
  | some record =>
    match t.readRecord cache record with
    | none => (none, (t.removeCombined combinedKey).2)
    | some object =>
      if object.combinedKey ≠ some combinedKey then (none, (t.removeCombined combinedKey).2)
      else
        match cache.nativeMemoryEntryFromDiskObject now object with
        | none => (none, (t.removeCombined combinedKey).2)
        | some entry =>
          (some entry, { t with state := t.state.touchObject combinedKey now.system.1 })

/-- A lookup.  A key with variants is answered by the first variant that the request is for. -/
def get (now : Clock) (key : Text) (requestVariantKey : List Text → Option Text) :
    Option NativeMemoryCacheEntry × StorageBinTier :=
  match t.state.variants.lookup key with
  | none => t.getCombined cache now key
  | some variants =>
    match variants.find? fun variant => requestVariantKey variant.fields = some variant.key with
    | none => (none, t)
    | some variant => t.getCombined cache now variant.key

variable (files : BinFiles)

/-- The object of an entry of the index, if all checks pass. -/
def restoredObject (now : Clock) (entry : StorageBinIndexEntry) :
    Option (NativeDiskCacheState.RestoredObject StorageBinObjectLocation) := do
  let bytes ← readObject cache.layout files entry.location
  if NATIVE_DISK_CACHE_ENCRYPTED_MAGIC_V1 <+: bytes then none
  else
    let bytes ← cache.decryptIfNeeded bytes
    let parsed ← (parseDiskCacheObject bytes cache.maxObjectBytes).toOption
    let combined ← parsed.combinedKey
    if (cache.expectedIndexKey combined).1 ≠ entry.combinedKey then none
    else
      let primary ← parsed.primaryKey
      let decoded ← NativeDiskCacheMeta.decode parsed.internalMeta
      let _ ← cache.nativeMemoryEntryFromDiskObject now parsed
      some
        { combined, primary
          userTag := parsed.userTag
          indexPath := parsed.indexPath
          cacheTags := parsed.cacheTags
          varyFields := decoded.varyFields
          record := ⟨entry.location, entry.location.len, entry.accessed⟩ }

/-- One turn of the loop over the index. -/
def restoreEntry (now : Clock)
    (acc : NativeDiskCacheState StorageBinObjectLocation × List StorageBinIndexEntry)
    (entry : StorageBinIndexEntry) :
    NativeDiskCacheState StorageBinObjectLocation × List StorageBinIndexEntry :=
  match restoredObject cache files now entry with
  | none => acc
  | some object => (acc.1.insertRestored object, acc.2 ++ [entry])

/-- The tables and the map after a start. -/
def rebuildStorageBinBackend (index : Option Bytes) (now : Clock) :
    Except IoError (NativeDiskCacheState StorageBinObjectLocation × StorageBinFreeMap) := do
  let entries ← readStorageBinIndex cache.layout index
  let (state, validEntries) :=
    entries.foldl (restoreEntry cache files now) (NativeDiskCacheState.empty, [])
  let map ← StorageBinFreeMap.fromOccupied cache.layout validEntries
  .ok (state, map)

/-- A cache whose index cannot be rebuilt starts empty. -/
def fromConfig (index : Option Bytes) (now : Clock) : StorageBinTier :=
  match rebuildStorageBinBackend cache files index now with
  | .error _ => ⟨NativeDiskCacheState.empty, StorageBinFreeMap.new cache.layout, files⟩
  | .ok (state, freeMap) => prune cache ⟨state, freeMap, files⟩

end StorageBinTier

end Fluxheim.Cache
