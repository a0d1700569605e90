import Fluxheim.Cache.DiskTier
import Fluxheim.Cache.VaryKey

/-!
# The memory cache of the proxy

The critical sections of the memory tier: what is done while its lock is held, by stores, promotions
from the disk tier, lookups, prunes and hard purges.  Those of slice requests and of the soft and
stale purges are left out.
-/

namespace Fluxheim.Cache

open Ascii

/-- The objects, the variants, the purge index and the counter. -/
structure NativeMemoryCacheState where
  objects : AList fun _ : Text => NativeMemoryCacheEntry
  variants : Variants
  purgeIndex : CachePurgeIndex
  bytes : ℕ

namespace NativeMemoryCacheState

variable (s : NativeMemoryCacheState)

/-- An empty cache. -/
def empty : NativeMemoryCacheState := ⟨∅, ∅, CachePurgeIndex.empty, 0⟩

variable (key : Text)

/-- An object and its record in the purge index; the lists of variants stay. -/
def eraseEntry : NativeMemoryCacheState :=
  { s with objects := s.objects.erase key, purgeIndex := s.purgeIndex.removeCombined key }

/-- `remove_native_memory_cache_entry`; the counter is left to the caller. -/
def removeEntry : Option NativeMemoryCacheEntry × NativeMemoryCacheState :=
  match s.objects.lookup key with
  | none => (none, s)
  | some entry =>
    (some entry,
      { s.eraseEntry key with variants := s.variants.retain (retainVariants key) })

/-- A removal and the update of the counter after it. -/
def dropEntry : NativeMemoryCacheState :=
  match s.removeEntry key with
  | (none, s) => s
  | (some entry, s) => { s with bytes := s.bytes - entry.weight.1 }

variable (acc : ℕ × NativeMemoryCacheState)

/-- One turn of the fold over the variants of a key. -/
def removeVariant (variant : NativeMemoryCacheVariant) : ℕ × NativeMemoryCacheState :=
  match acc.2.objects.lookup variant.key with
  | none => acc
  | some entry => (saturatingAdd acc.1 entry.weight.1, acc.2.eraseEntry variant.key)

/-- The objects of all variants of a key go; the result is their weight. -/
def removeVariants (baseKey : Text) : ℕ × NativeMemoryCacheState :=
  match s.variants.lookup baseKey with
  | none => (0, s)
  | some variants =>
    variants.foldl removeVariant (0, { s with variants := s.variants.erase baseKey })

/-- The counter without the object of a key. -/
def bytesWithout : ℕ :=
  match s.objects.lookup key with
  | none => s.bytes
  | some previous => s.bytes - previous.weight.1

/-- An object is put in, in the place of an older one. -/
def insertEntry (entry : NativeMemoryCacheEntry) : NativeMemoryCacheState :=
  { s with
    objects := s.objects.insert key entry
    bytes := saturatingAdd (s.bytesWithout key) entry.weight.1 }

/-- What a store removes and lists before it puts the response in. -/
def prepareStore (key storeKey : Text) : Option (List Text) → NativeMemoryCacheState
  | some fields =>
    let s := (s.dropEntry key).dropEntry storeKey
    { s with variants := replaceVariant s.variants key ⟨fields, storeKey⟩ }
  | none =>
    let (removedBytes, s) := s.removeVariants key
    ({ s with bytes := s.bytes - removedBytes } : NativeMemoryCacheState).dropEntry storeKey

/-- What the purge index keeps of a response. -/
structure PurgeFields where
  userTag : Text
  path : Option Text
  cacheTags : List Bytes

/-- A response of the origin is stored. -/
def storeEntry (key storeKey : Text) (varyFields : Option (List Text)) (purge : PurgeFields)
    (entry : NativeMemoryCacheEntry) : NativeMemoryCacheState :=
  let s := s.prepareStore key storeKey varyFields
  let s := { s with
    purgeIndex := s.purgeIndex.insertWithPathAndTags
      ⟨storeKey, key, purge.userTag, purge.path, purge.cacheTags⟩ }
  s.insertEntry storeKey entry

/-- A response that comes from the disk tier is listed among the variants; neither its older
forms nor the purge index are looked at. -/
def preparePromotion (key storeKey : Text) : Option (List Text) → NativeMemoryCacheState
  | some fields => { s with variants := replaceVariant s.variants key ⟨fields, storeKey⟩ }
  | none => s

/-- A response of the disk tier is stored. -/
def promoteEntry (key storeKey : Text) (varyFields : Option (List Text))
    (entry : NativeMemoryCacheEntry) : NativeMemoryCacheState :=
  (s.preparePromotion key storeKey varyFields).insertEntry storeKey entry

/-! ### Lookups -/

section Lookup

variable (digest : Bytes → Variance) (now : ℤ) (key : Text) (headers : List Header)

/-- The variants of a key that the request is for, up to the first that is fresh or expired. -/
def getVariant : List NativeMemoryCacheVariant → NativeMemoryCacheState →
    Option NativeMemoryCacheEntry × NativeMemoryCacheState
  | [], s => (none, s)
  | variant :: variants, s =>
    if nativeVaryCacheKey digest key variant.fields headers ≠ variant.key then
      getVariant variants s
    else
      match s.objects.lookup variant.key with
      | none => getVariant variants s
      | some entry =>
        if now < entry.expiresAt then (some entry, s)
        else if nativeCacheEntryHasStaleWindow entry now = false then
          (none, s.dropEntry variant.key)
        else (none, s)

/-- The object of a key that has no variants. -/
def getPlain : Option NativeMemoryCacheEntry × NativeMemoryCacheState :=
  if key ∈ s.variants then (none, s)
  else
    match s.objects.lookup key with
    | none => (none, s)
    | some entry =>
      if now < entry.expiresAt then (some entry, s)
      else if nativeCacheEntryHasStaleWindow entry now = false then (none, s.dropEntry key)
      else (none, s)

/-- The part of `get` before the disk tier is asked. -/
def get : Option NativeMemoryCacheEntry × NativeMemoryCacheState :=
  match getVariant digest now key headers ((s.variants.lookup key).getD []) s with
  | (some entry, s) => (some entry, s)
  | (none, s) => s.getPlain now key

/-- An entry that may be served in place of an error; `serves` is the policy of the cache for
the flag that is stored with an entry. -/
def servesStale (serves : Bool → Bool) (entry : NativeMemoryCacheEntry) : Bool :=
  serves entry.staleReuseForbidden && decide (entry.expiresAt ≤ now) &&
    entry.staleIfErrorUntil.any (now < ·)

/-- The first variant of the request that may be served stale. -/
def getStaleVariant (serves : Bool → Bool) : List NativeMemoryCacheVariant →
    NativeMemoryCacheState → Option NativeMemoryCacheEntry × NativeMemoryCacheState
  | [], s => (none, s)
  | variant :: variants, s =>
    if nativeVaryCacheKey digest key variant.fields headers ≠ variant.key then
      getStaleVariant serves variants s
    else
      match s.objects.lookup variant.key with
      | none => getStaleVariant serves variants s
      | some entry =>
        if servesStale now serves entry then (some entry, s)
        else if entry.staleIfErrorUntil.any (· ≤ now) then (none, s.dropEntry variant.key)
        else getStaleVariant serves variants s

/-- A stale response of a key without variants. -/
def getStalePlain (serves : Bool → Bool) : Option NativeMemoryCacheEntry × NativeMemoryCacheState :=
  if key ∈ s.variants then (none, s)
  else
    match s.objects.lookup key with
    | none => (none, s)
    | some entry =>
      if servesStale now serves entry then (some entry, s)
      else if entry.staleIfErrorUntil.any (· ≤ now) then (none, s.dropEntry key)
      else (none, s)

/-- The part of `get_stale` before the disk tier is asked. -/
def getStale (serves : Bool → Bool) : Option NativeMemoryCacheEntry × NativeMemoryCacheState :=
  match getStaleVariant digest now key headers serves ((s.variants.lookup key).getD []) s with
  | (some entry, s) => (some entry, s)
  | (none, s) => s.getStalePlain now key serves

end Lookup

/-- The end of the time in which a response can be of use. -/
def staleUntil (entry : NativeMemoryCacheEntry) : ℤ :=
  match entry.staleWhileRevalidateUntil, entry.staleIfErrorUntil with
  | some a, some b => max a b
  | some a, none => a
  | none, some b => b
  | none, none => entry.expiresAt

/-- One turn of the loop over the expired keys. -/
def removeExpired (key : Text) : ℕ × NativeMemoryCacheState :=
  match acc.2.removeEntry key with
  | (none, s) => (acc.1, s)
  | (some entry, s) => (saturatingAdd acc.1 entry.weight.1, s)

/-- The objects that are past their time. -/
def expiredKeys (now : ℤ) : List Text :=
  (s.objects.entries.filter fun e => staleUntil e.2 ≤ now).map (·.1)

/-- These objects go. -/
def dropExpired (now : ℤ) : NativeMemoryCacheState :=
  let (expiredBytes, s) := (s.expiredKeys now).foldl removeExpired (0, s)
  { s with bytes := s.bytes - expiredBytes }

/-- A way to sort by the first component.  The sort is not stable, and the order in which a hash
table is gone through is not known. -/
structure AgeSort where
  sort : List (ℤ × Text) → List (ℤ × Text)
  perm : ∀ l, (sort l).Perm l
  sorted : ∀ l, (sort l).Pairwise fun a b => a.1 ≤ b.1

/-- The keys with the times they were stored at, in order. -/
def byAge (order : AgeSort) : List (ℤ × Text) :=
  order.sort (s.objects.entries.map fun e => (e.2.storedAt, e.1))

/-- The loop over the keys by age. -/
def dropOldest (maxBytes : ℕ) : List (ℤ × Text) → NativeMemoryCacheState → NativeMemoryCacheState
  | [], s => s
  | (_, key) :: rest, s =>
    if s.bytes ≤ maxBytes then s else dropOldest maxBytes rest (s.dropEntry key)

/-- The sum of the weights, in 64 bits. -/
def actualBytes : ℕ := (s.objects.entries.map (·.2.weight.1)).foldl saturatingAdd 0

/-- The pass that brings the cache below its limit. -/
def prune (now : ℤ) (order : AgeSort) (maxBytes : ℕ) : NativeMemoryCacheState :=
  let s := s.dropExpired now
  if maxBytes < s.bytes then
    let s := dropOldest maxBytes (s.byAge order) s
    if s.objects.entries = [] ∧ maxBytes < s.bytes then { s with bytes := 0 }
    else { s with bytes := min s.bytes s.actualBytes }
  else s

/-- `purge_native_memory_state_primary`. -/
def purgePrimary (primaryKey combinedKey : Text) : NativeMemoryCacheState :=
  let s := s.dropEntry combinedKey
  let s := if primaryKey ≠ combinedKey then s.dropEntry primaryKey else s
  let (removedBytes, s) := s.removeVariants primaryKey
  { s with bytes := s.bytes - removedBytes }

/-- One turn of the loop over the records that a scope covers. -/
def purgeEntry (entry : CachePurgeIndexEntry) : NativeMemoryCacheState :=
  match s.objects.lookup entry.combinedKey with
  | none => { s with purgeIndex := s.purgeIndex.removeCombined entry.combinedKey }
  | some _ => s.dropEntry entry.combinedKey

/-- The hard purges by virtual host or route, path, prefix, pattern or tag. -/
def purgeIndexed (userTag : Text) (scope : CachePurgeIndex.PurgeScope) (limit : ℕ) :
    NativeMemoryCacheState :=
  (s.purgeIndex.entriesFor userTag scope limit).foldl purgeEntry s

end NativeMemoryCacheState

end Fluxheim.Cache
