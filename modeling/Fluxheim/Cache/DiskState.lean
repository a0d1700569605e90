import Fluxheim.Lib.OrderedSet
import Fluxheim.Cache.PurgeIndex
import Fluxheim.Cache.StorageBinAlloc
import Fluxheim.Cache.Variants

/-!
# The tables of the disk cache

Four tables and a counter: the objects by key, their keys in the order of the last use, the variants
of a key that a `Vary` response has, the purge index, and the bytes in use.  The place of an object
is of any type.  Every update keeps the tables in agreement, and the counter at the sum of the
weights.
-/

namespace Fluxheim.Cache

open Ascii AList
open scoped ByteOrder

/-- An object: its place, weight and last use. -/
structure NativeDiskCacheRecord (L : Type) where
  location : L
  weight : ℕ
  accessedAt : ℤ

/-- A time and a key, compared in this order. -/
abbrev EvictionKey := ℤ ×ₗ Text

/-- The tables. -/
structure NativeDiskCacheState (L : Type) where
  objects : AList fun _ : Text => NativeDiskCacheRecord L
  evictionOrder : OrderedSet EvictionKey
  variants : Variants
  purgeIndex : CachePurgeIndex
  bytes : ℕ

/-- What a store files an object under. -/
structure NativeDiskCacheStoreKey where
  combined : Text
  primary : Text
  userTag : Text
  indexPath : Option Text
  cacheTags : List Bytes
  varyFields : List Text

namespace NativeDiskCacheState

variable {L : Type} (s : NativeDiskCacheState L)

/-- An empty cache. -/
def empty : NativeDiskCacheState L := ⟨∅, OrderedSet.empty, ∅, CachePurgeIndex.empty, 0⟩

/-- An object is put in, in the place of an older one. -/
def insertObject (key : Text) (record : NativeDiskCacheRecord L) : NativeDiskCacheState L :=
  let evictionOrder :=
    match s.objects.lookup key with
    | some previous => s.evictionOrder.erase (toLex (previous.accessedAt, key))
    | none => s.evictionOrder
  { s with
    objects := s.objects.insert key record
    evictionOrder := evictionOrder.insert (toLex (record.accessedAt, key)) }

/-- An object is taken out. -/
def removeObject (key : Text) : Option (NativeDiskCacheRecord L) × NativeDiskCacheState L :=
  match s.objects.lookup key with
  | none => (none, s)
  | some record =>
    (some record,
      { s with
        objects := s.objects.erase key
        evictionOrder := s.evictionOrder.erase (toLex (record.accessedAt, key)) })

/-- An object is used. -/
def touchObject (key : Text) (accessedAt : ℤ) : NativeDiskCacheState L :=
  match s.objects.lookup key with
  | none => s
  | some record =>
    { s with
      objects := s.objects.insert key { record with accessedAt }
      evictionOrder :=
        (s.evictionOrder.erase (toLex (record.accessedAt, key))).insert
          (toLex (accessedAt, key)) }

/-- The object that has not been used for longest. -/
def oldestKey : Option Text := s.evictionOrder.first.map fun entry => (ofLex entry).2

/-- The part of `remove_combined_locked` that holds the lock of the tables. -/
def removeCombined (combinedKey : Text) :
    Option (NativeDiskCacheRecord L) × NativeDiskCacheState L :=
  match s.removeObject combinedKey with
  | (none, next) =>
    (none, { next with variants := next.variants.retain (retainVariants combinedKey) })
  | (some record, next) =>
    (some record,
      { next with
        bytes := next.bytes - record.weight
        purgeIndex := next.purgeIndex.removeCombined combinedKey
        variants := next.variants.retain (retainVariants combinedKey) })

/-- The object has room. -/
def keyAdmissible (incomingKey : Text) (incomingWeight maxBytes : ℕ) : Bool :=
  let existing := ((s.objects.lookup incomingKey).map (·.weight)).getD 0
  saturatingAdd (s.bytes - existing) incomingWeight ≤ maxBytes

/-- The part of `store_inner` that puts an object into the tables. -/
def insertStored (key : NativeDiskCacheStoreKey) (location : L) (encodedLen : ℕ) (now : ℤ) :
    NativeDiskCacheState L :=
  let next := s.insertObject key.combined ⟨location, encodedLen, now⟩
  { next with
    variants :=
      if key.varyFields = [] then next.variants.erase key.primary
      else replaceVariant next.variants key.primary ⟨key.varyFields, key.combined⟩
    purgeIndex := next.purgeIndex.insertWithPathAndTags
      ⟨key.combined, key.primary, key.userTag, key.indexPath, key.cacheTags⟩
    bytes := saturatingAdd next.bytes encodedLen }

/-- An object that is found on a restart.  Its tag may be missing. -/
structure RestoredObject (L : Type) where
  combined : Text
  primary : Text
  userTag : Option Text
  indexPath : Option Text
  cacheTags : List Bytes
  varyFields : List Text
  record : NativeDiskCacheRecord L

/-- What the loops over the stored objects do with each of them. -/
def insertRestored (object : RestoredObject L) : NativeDiskCacheState L :=
  let next :=
    ({ s with bytes := saturatingAdd s.bytes object.record.weight } :
      NativeDiskCacheState L).insertObject object.combined object.record
  { next with
    variants :=
      if object.varyFields = [] then next.variants
      else next.variants.insert object.primary
        ((next.variants.lookup object.primary).getD [] ++ [⟨object.varyFields, object.combined⟩])
    purgeIndex :=
      match object.userTag with
      | none => next.purgeIndex
      | some userTag => next.purgeIndex.insertWithPathAndTags
          ⟨object.combined, object.primary, userTag, object.indexPath, object.cacheTags⟩ }

end NativeDiskCacheState

variable {L : Type} {order : OrderedSet EvictionKey}
  {objects other : AList fun _ : Text => NativeDiskCacheRecord L}

/-- The pairs of last use and key of the objects, and no others. -/
def Tracks (order : OrderedSet EvictionKey)
    (objects : AList fun _ : Text => NativeDiskCacheRecord L) : Prop :=
  ∀ time key, toLex (time, key) ∈ order ↔
    ∃ record, objects.lookup key = some record ∧ record.accessedAt = time

theorem Tracks.congr (h : Tracks order objects)
    (hlookup : ∀ key, other.lookup key = objects.lookup key) : Tracks order other := by
  intro time key
  rw [hlookup]
  exact h time key

theorem Tracks.erase {key : Text} {record : NativeDiskCacheRecord L} (h : Tracks order objects)
    (hrec : objects.lookup key = some record) :
    Tracks (order.erase (toLex (record.accessedAt, key))) (objects.erase key) := by
  intro time k
  rw [OrderedSet.mem_erase, h time k]
  by_cases hk : k = key
  · subst hk
    rw [lookup_erase, hrec]
    constructor
    · rintro ⟨⟨found, hfound, htime⟩, hne⟩
      cases hfound
      exact absurd (congrArg (fun t => toLex (t, k)) htime.symm) hne
    · rintro ⟨found, hfound, -⟩
      cases hfound
  · rw [lookup_erase_ne hk]
    refine ⟨And.left, fun hfound => ⟨hfound, fun heq => hk ?_⟩⟩
    exact congrArg Prod.snd (toLex_inj.1 heq)

theorem Tracks.insert {key : Text} (record : NativeDiskCacheRecord L) (h : Tracks order objects)
    (hnew : objects.lookup key = none) :
    Tracks (order.insert (toLex (record.accessedAt, key))) (objects.insert key record) := by
  intro time k
  rw [OrderedSet.mem_insert, h time k]
  by_cases hk : k = key
  · subst hk
    rw [lookup_insert, hnew]
    constructor
    · rintro (heq | ⟨found, hfound, -⟩)
      · exact ⟨record, rfl, (congrArg Prod.fst (toLex_inj.1 heq)).symm⟩
      · cases hfound
    · rintro ⟨found, hfound, htime⟩
      cases hfound
      exact Or.inl (htime ▸ rfl)
  · rw [lookup_insert_ne hk]
    refine ⟨fun hor => hor.resolve_left fun heq => hk ?_, Or.inr⟩
    exact congrArg Prod.snd (toLex_inj.1 heq)

namespace NativeDiskCacheState

variable {s : NativeDiskCacheState L}

/-- The weights of the stored objects. -/
def weights (s : NativeDiskCacheState L) : ℕ := s.objects.weightSum (·.weight)

/-- The tables agree with the objects. -/
structure Coherent (s : NativeDiskCacheState L) : Prop where
  eviction : Tracks s.evictionOrder s.objects
  bytes : s.bytes = s.weights
  purge : ∀ key ∈ s.purgeIndex, key ∈ s.objects
  variants : Named s.objects s.variants

theorem coherent_empty : (empty : NativeDiskCacheState L).Coherent where
  eviction _ _ := by simp [empty]
  bytes := rfl
  purge _ hkey := absurd hkey (CachePurgeIndex.not_mem_empty _)
  variants := Named.empty _

variable {record : NativeDiskCacheRecord L} {key : Text}

/-- What is left after a removal: nothing but the variants changes where there is no object. -/
theorem removeCombined_of_none (hnone : s.objects.lookup key = none) :
    s.removeCombined key =
      (none, { s with variants := s.variants.retain (retainVariants key) }) := by
  simp only [removeCombined, removeObject, hnone]

theorem removeCombined_of_some (hrec : s.objects.lookup key = some record) :
    s.removeCombined key = (some record,
      { objects := s.objects.erase key
        evictionOrder := s.evictionOrder.erase (toLex (record.accessedAt, key))
        variants := s.variants.retain (retainVariants key)
        purgeIndex := s.purgeIndex.removeCombined key
        bytes := s.bytes - record.weight }) := by
  simp only [removeCombined, removeObject, hrec]

theorem Coherent.removeCombined (h : s.Coherent) (key : Text) :
    (s.removeCombined key).2.Coherent := by
  cases hrec : s.objects.lookup key with
  | none =>
    rw [removeCombined_of_none hrec]
    exact { h with
      variants := (h.variants.retain key).mono fun k hk => (mem_erase.1 hk).2 }
  | some record =>
    rw [removeCombined_of_some hrec]
    refine ⟨h.eviction.erase hrec, ?_, fun k hk => ?_, h.variants.retain key⟩
    · show s.bytes - record.weight = (s.objects.erase key).weightSum (·.weight)
      rw [h.bytes, weights, weightSum_erase hrec]
      exact Nat.add_sub_cancel_left _ _
    · obtain ⟨hne, hmem⟩ := CachePurgeIndex.mem_removeCombined.1 hk
      exact mem_erase.2 ⟨hne, h.purge k hmem⟩

theorem Coherent.touchObject (h : s.Coherent) (key : Text) (accessedAt : ℤ) :
    (s.touchObject key accessedAt).Coherent := by
  rw [NativeDiskCacheState.touchObject]
  cases hrec : s.objects.lookup key with
  | none => exact h
  | some record =>
    have hsub : ∀ k, k ∈ s.objects → k ∈ s.objects.insert key { record with accessedAt } :=
      fun k hk => (mem_insert _).2 (Or.inr hk)
    refine ⟨?_, ?_, fun k hk => hsub k (h.purge k hk), h.variants.mono hsub⟩
    · -- the entry is replaced, so the order is that of the table without it and then with it
      refine ((h.eviction.erase hrec).insert { record with accessedAt }
        (lookup_erase key _)).congr fun k => ?_
      by_cases hk : k = key
      · subst hk
        rw [lookup_insert, lookup_insert]
      · rw [lookup_insert_ne hk, lookup_insert_ne hk, lookup_erase_ne hk]
    · show s.bytes = (s.objects.insert key { record with accessedAt }).weightSum (·.weight)
      rw [weightSum_insert, h.bytes, weights, weightSum_erase hrec]

/-- Only a key that has no object is put in. -/
theorem insertObject_of_none (hnone : s.objects.lookup key = none) :
    s.insertObject key record =
      { s with
        objects := s.objects.insert key record
        evictionOrder := s.evictionOrder.insert (toLex (record.accessedAt, key)) } := by
  simp only [insertObject, hnone]

theorem weights_insert_of_none (hnone : s.objects.lookup key = none) :
    (s.objects.insert key record).weightSum (·.weight) = s.weights + record.weight := by
  have hmem : key ∉ s.objects := lookup_eq_none.1 hnone
  rw [weightSum_insert, weightSum_erase_of_notMem hmem, add_comm, weights]

theorem Coherent.insertStored (h : s.Coherent) {key : NativeDiskCacheStoreKey} {loc : L}
    {encodedLen : ℕ} {now : ℤ} (hnone : s.objects.lookup key.combined = none)
    (hsum : s.bytes + encodedLen ≤ U64_MAX) : (s.insertStored key loc encodedLen now).Coherent := by
  have hsub : ∀ k, k ∈ s.objects → k ∈ s.objects.insert key.combined ⟨loc, encodedLen, now⟩ :=
    fun k hk => (mem_insert _).2 (Or.inr hk)
  have hnamed := h.variants.mono hsub
  rw [NativeDiskCacheState.insertStored, insertObject_of_none hnone]
  refine ⟨h.eviction.insert _ hnone, ?_, fun k hk => ?_, ?_⟩
  · show saturatingAdd s.bytes encodedLen = _
    rw [weights, weights_insert_of_none hnone, ← h.bytes]
    exact min_eq_left hsum
  · rcases CachePurgeIndex.mem_insertWithPathAndTags.1 hk with rfl | hk
    · exact (mem_insert _).2 (Or.inl rfl)
    · exact hsub k (h.purge k hk)
  · show Named _ (if key.varyFields = [] then _ else _)
    split_ifs
    · exact hnamed.erase _
    · exact hnamed.replaceVariant _ ((mem_insert _).2 (Or.inl rfl))

theorem Coherent.insertRestored (h : s.Coherent) {obj : RestoredObject L}
    (hnone : s.objects.lookup obj.combined = none)
    (hsum : s.bytes + obj.record.weight ≤ U64_MAX) : (s.insertRestored obj).Coherent := by
  have hsub : ∀ k, k ∈ s.objects → k ∈ s.objects.insert obj.combined obj.record :=
    fun k hk => (mem_insert _).2 (Or.inr hk)
  have hnew : obj.combined ∈ s.objects.insert obj.combined obj.record :=
    (mem_insert _).2 (Or.inl rfl)
  have hnamed := h.variants.mono hsub
  have hcount : ({ s with bytes := saturatingAdd s.bytes obj.record.weight } :
      NativeDiskCacheState L).objects.lookup obj.combined = none := hnone
  rw [NativeDiskCacheState.insertRestored, insertObject_of_none hcount]
  refine ⟨h.eviction.insert _ hnone, ?_, fun k hk => ?_, ?_⟩
  · show saturatingAdd s.bytes obj.record.weight = _
    rw [weights, weights_insert_of_none hnone, ← h.bytes]
    exact min_eq_left hsum
  · cases htag : obj.userTag with
    | none =>
      simp only [htag] at hk
      exact hsub k (h.purge k hk)
    | some userTag =>
      simp only [htag] at hk
      rcases CachePurgeIndex.mem_insertWithPathAndTags.1 hk with rfl | hk
      · exact hnew
      · exact hsub k (h.purge k hk)
  · show Named _ (if obj.varyFields = [] then _ else _)
    split_ifs
    · exact hnamed
    · exact hnamed.push _ hnew

end NativeDiskCacheState

end Fluxheim.Cache
