import Fluxheim.Cache.DiskTierSpace

/-!
# Runs of the disk cache

A restart finds an object for some of the entries of the index.  If a key comes twice, the counter
gets ahead of the objects; in all runs after a restart the tables agree and the bytes are within the
limit exactly if none does.
-/

namespace Fluxheim.Cache

open Ascii List AList
open scoped ByteOrder

/-! ### Restored objects -/

namespace NativeDiskCacheState

variable {L : Type} {s : NativeDiskCacheState L}

/-- The objects of a restart, one after the other. -/
def insertAllRestored (s : NativeDiskCacheState L) (objects : List (RestoredObject L)) :
    NativeDiskCacheState L :=
  objects.foldl insertRestored s

theorem insertRestored_bytes {obj : RestoredObject L} (h : s.bytes + obj.record.weight ≤ U64_MAX) :
    (s.insertRestored obj).bytes = s.bytes + obj.record.weight :=
  min_eq_left h

theorem insertRestored_objects (obj : RestoredObject L) :
    (s.insertRestored obj).objects = s.objects.insert obj.combined obj.record := rfl

variable {P : NativeDiskCacheRecord L → Prop}

/-- What is true of the records before, and of the new one. -/
theorem insertRestored_forall {obj : RestoredObject L}
    (h : ∀ key record, s.objects.lookup key = some record → P record) (hnew : P obj.record) :
    ∀ key record, (s.insertRestored obj).objects.lookup key = some record → P record := by
  intro key record hfound
  rw [insertRestored_objects] at hfound
  by_cases hk : key = obj.combined
  · subst hk
    rw [lookup_insert] at hfound
    cases hfound
    exact hnew
  · rw [lookup_insert_ne hk] at hfound
    exact h key record hfound

variable {objects : List (RestoredObject L)}

theorem insertAllRestored_forall (h : ∀ key record, s.objects.lookup key = some record → P record)
    (hnew : ∀ obj ∈ objects, P obj.record) :
    ∀ key record, (s.insertAllRestored objects).objects.lookup key = some record → P record := by
  induction objects generalizing s with
  | nil => exact h
  | cons obj objects ih =>
    exact ih (insertRestored_forall h (hnew obj mem_cons_self))
      fun other hother => hnew other (mem_cons_of_mem _ hother)

/-- The counter counts every object. -/
theorem insertAllRestored_bytes (hsum : s.bytes + (objects.map (·.record.weight)).sum ≤ U64_MAX) :
    (s.insertAllRestored objects).bytes = s.bytes + (objects.map (·.record.weight)).sum := by
  induction objects generalizing s with
  | nil => rfl
  | cons obj objects ih =>
    rw [map_cons, sum_cons] at hsum ⊢
    have hstep := @insertRestored_bytes L s obj (by omega)
    show ((s.insertRestored obj).insertAllRestored objects).bytes = _
    rw [ih (by omega)]
    omega

/-- Different keys: the tables agree. -/
theorem Coherent.insertAllRestored (h : s.Coherent) (hkeys : (objects.map (·.combined)).Nodup)
    (hnew : ∀ obj ∈ objects, s.objects.lookup obj.combined = none)
    (hsum : s.bytes + (objects.map (·.record.weight)).sum ≤ U64_MAX) :
    (s.insertAllRestored objects).Coherent := by
  induction objects generalizing s with
  | nil => exact h
  | cons obj objects ih =>
    rw [map_cons, sum_cons] at hsum
    rw [map_cons, nodup_cons] at hkeys
    have hstep := @insertRestored_bytes L s obj (by omega)
    refine ih (h.insertRestored (hnew obj mem_cons_self) (by omega)) hkeys.2
      (fun other hother => ?_) (by omega)
    rw [insertRestored_objects, lookup_insert_ne]
    · exact hnew other (mem_cons_of_mem _ hother)
    · intro heq
      exact hkeys.1 (mem_map.2 ⟨other, hother, heq⟩)

/-- Different keys: every object has its entry. -/
theorem insertAllRestored_entries (hkeys : (objects.map (·.combined)).Nodup)
    (hnew : ∀ obj ∈ objects, s.objects.lookup obj.combined = none) :
    (s.insertAllRestored objects).objects.entries.map (·.2) =
      (objects.map (·.record)).reverse ++ s.objects.entries.map (·.2) := by
  induction objects generalizing s with
  | nil => rfl
  | cons obj objects ih =>
    rw [map_cons, nodup_cons] at hkeys
    have hmem : obj.combined ∉ s.objects :=
      lookup_eq_none.1 (hnew obj mem_cons_self)
    have hrest : ∀ other ∈ objects,
        (s.insertRestored obj).objects.lookup other.combined = none := by
      intro other hother
      rw [insertRestored_objects, lookup_insert_ne]
      · exact hnew other (mem_cons_of_mem _ hother)
      · intro heq
        exact hkeys.1 (mem_map.2 ⟨other, hother, heq⟩)
    show ((s.insertRestored obj).insertAllRestored objects).objects.entries.map (·.2) = _
    rw [ih hkeys.2 hrest, insertRestored_objects, entries_insert_of_notMem hmem, map_cons,
      map_cons, reverse_cons, append_assoc, singleton_append]

theorem insertRestored_weights (obj : RestoredObject L) :
    (s.insertRestored obj).weights ≤ s.weights + obj.record.weight := by
  show (s.objects.insert obj.combined obj.record).weightSum (·.weight) ≤ _
  rw [weightSum_insert, weights]
  cases hold : s.objects.lookup obj.combined with
  | none =>
    rw [weightSum_erase_of_notMem (lookup_eq_none.1 hold)]
    omega
  | some record =>
    have := weightSum_erase (w := fun r : NativeDiskCacheRecord L => r.weight) hold
    omega

/-- Once the counter is ahead of the objects it stays so. -/
theorem insertAllRestored_ahead (hahead : s.weights < s.bytes)
    (hsum : s.bytes + (objects.map (·.record.weight)).sum ≤ U64_MAX) :
    (s.insertAllRestored objects).weights < (s.insertAllRestored objects).bytes := by
  induction objects generalizing s with
  | nil => exact hahead
  | cons obj objects ih =>
    rw [map_cons, sum_cons] at hsum
    have hstep := @insertRestored_bytes L s obj (by omega)
    have hweights := s.insertRestored_weights obj
    exact ih (by omega) (by omega)

/-- **A key that comes twice is counted twice and stored once.** -/
theorem insertAllRestored_again (h : s.weights ≤ s.bytes)
    (hpos : ∀ key record, s.objects.lookup key = some record → 0 < record.weight)
    (hpos' : ∀ obj ∈ objects, 0 < obj.record.weight) (hagain : ¬ ((objects.map (·.combined)).Nodup ∧
      ∀ obj ∈ objects, s.objects.lookup obj.combined = none))
    (hsum : s.bytes + (objects.map (·.record.weight)).sum ≤ U64_MAX) :
    (s.insertAllRestored objects).weights < (s.insertAllRestored objects).bytes := by
  induction objects generalizing s with
  | nil => simp at hagain
  | cons obj objects ih =>
    rw [map_cons, sum_cons] at hsum
    have hstep := @insertRestored_bytes L s obj (by omega)
    cases hold : s.objects.lookup obj.combined with
    | some record =>
      -- the record that is replaced has been counted
      have hless : (s.insertRestored obj).weights < s.weights + obj.record.weight := by
        show (s.objects.insert obj.combined obj.record).weightSum (·.weight) < _
        have hsplit := weightSum_erase (w := fun r : NativeDiskCacheRecord L => r.weight) hold
        have := hpos _ record hold
        rw [weightSum_insert, weights]
        omega
      exact @insertAllRestored_ahead L (s.insertRestored obj) objects (by omega) (by omega)
    | none =>
      have hweights := s.insertRestored_weights obj
      refine ih (by omega) (insertRestored_forall hpos (hpos' obj mem_cons_self))
        (fun other hother => hpos' other (mem_cons_of_mem _ hother)) (fun hrest => ?_) (by omega)
      refine hagain ⟨?_, fun other hother => ?_⟩
      · rw [map_cons, nodup_cons]
        refine ⟨fun hmem => ?_, hrest.1⟩
        obtain ⟨other, hother, heq⟩ := mem_map.1 hmem
        have hfound := hrest.2 other hother
        rw [insertRestored_objects, heq, lookup_insert] at hfound
        cases hfound
      · rcases mem_cons.1 hother with rfl | hother
        · exact hold
        · have hfound := hrest.2 other hother
          rw [insertRestored_objects] at hfound
          by_cases hk : other.combined = obj.combined
          · rw [hk]
            exact hold
          · rwa [lookup_insert_ne hk] at hfound

end NativeDiskCacheState

/-! ### The start -/

namespace StorageBinTier

variable {cache : NativeDiskCache} {t : StorageBinTier} {files : BinFiles} {now : Clock}

/-- An object that a restart finds. -/
abbrev Restored := NativeDiskCacheState.RestoredObject StorageBinObjectLocation

/-- The entries of an index whose objects pass all checks, with their objects. -/
def survivors (cache : NativeDiskCache) (files : BinFiles) (now : Clock)
    (entries : List StorageBinIndexEntry) : List (StorageBinIndexEntry × Restored) :=
  entries.filterMap fun entry => (restoredObject cache files now entry).map fun object =>
    (entry, object)

/-- The entries of an index that are kept. -/
abbrev validEntries (cache : NativeDiskCache) (files : BinFiles) (now : Clock)
    (entries : List StorageBinIndexEntry) : List StorageBinIndexEntry :=
  (survivors cache files now entries).map (·.1)

/-- The objects that an index leads to. -/
abbrev restoredObjects (cache : NativeDiskCache) (files : BinFiles) (now : Clock)
    (entries : List StorageBinIndexEntry) : List Restored :=
  (survivors cache files now entries).map (·.2)

theorem foldl_restoreEntry (es : List StorageBinIndexEntry)
    (acc : NativeDiskCacheState StorageBinObjectLocation × List StorageBinIndexEntry) :
    es.foldl (restoreEntry cache files now) acc =
      (acc.1.insertAllRestored (restoredObjects cache files now es),
        acc.2 ++ validEntries cache files now es) := by
  induction es generalizing acc with
  | nil => simp [survivors, validEntries, restoredObjects, NativeDiskCacheState.insertAllRestored]
  | cons e es ih =>
    rw [foldl_cons, ih]
    cases hobj : restoredObject cache files now e with
    | none =>
      simp only [restoreEntry, validEntries, restoredObjects, survivors, filterMap_cons, hobj,
        Option.map_none]
    | some obj =>
      simp only [restoreEntry, validEntries, restoredObjects, survivors, filterMap_cons, hobj,
        Option.map_some, map_cons, append_assoc, singleton_append]
      rfl

/-- The place, the weight and the key in the index of a restored object are those of its entry. -/
theorem restoredObject_eq_some {e : StorageBinIndexEntry} {obj : Restored}
    (h : restoredObject cache files now e = some obj) :
    obj.record = ⟨e.location, e.location.len, e.accessed⟩ ∧
      (cache.expectedIndexKey obj.combined).1 = e.combinedKey := by
  obtain ⟨bytes, -, h⟩ := Option.bind_eq_some_iff.1 h
  split_ifs at h
  obtain ⟨plain, -, h⟩ := Option.bind_eq_some_iff.1 h
  obtain ⟨parsed, -, h⟩ := Option.bind_eq_some_iff.1 h
  obtain ⟨combined, -, h⟩ := Option.bind_eq_some_iff.1 h
  split_ifs at h with hkey
  obtain ⟨primary, -, h⟩ := Option.bind_eq_some_iff.1 h
  obtain ⟨decoded, -, h⟩ := Option.bind_eq_some_iff.1 h
  obtain ⟨_, -, h⟩ := Option.bind_eq_some_iff.1 h
  cases h
  exact ⟨rfl, not_not.1 hkey⟩

variable {es : List StorageBinIndexEntry}

theorem of_mem_survivors
    {found : StorageBinIndexEntry × Restored} (h : found ∈ survivors cache files now es) :
    found.1 ∈ es ∧
      found.2.record = ⟨found.1.location, found.1.location.len, found.1.accessed⟩ ∧
      (cache.expectedIndexKey found.2.combined).1 = found.1.combinedKey := by
  obtain ⟨e, hentry, hfound⟩ := mem_filterMap.1 h
  obtain ⟨obj, hobj, rfl⟩ := Option.map_eq_some_iff.1 hfound
  exact ⟨hentry, restoredObject_eq_some hobj⟩

theorem weights_survivors (es : List StorageBinIndexEntry) :
    (restoredObjects cache files now es).map (·.record.weight) =
      ((validEntries cache files now es).map (·.location)).map (·.len) := by
  simp only [map_map]
  refine map_congr_left fun found hfound => ?_
  simp only [Function.comp_apply, (of_mem_survivors hfound).2.1]

/-- A cache within its limit is left as it is. -/
theorem prune_of_le (h : t.state.bytes ≤ cache.maxBytes) : t.prune cache = t := by
  rw [prune, attempts, evictUntil_succ, passes, if_pos (decide_eq_true h)]

/-- The state after a restart, and the counter: the cache is empty if the places of the objects
overlap or do not fit; otherwise all its objects fit, and none is evicted. -/
theorem fromConfig_cases {idx : Option Bytes}
    (hread : readStorageBinIndex cache.layout idx = .ok es) :
    (¬ StorageBinFreeMap.Admissible cache.layout (validEntries cache files now es) ∧
      fromConfig cache files idx now =
        ⟨NativeDiskCacheState.empty, StorageBinFreeMap.new cache.layout, files⟩) ∨
    StorageBinFreeMap.Admissible cache.layout (validEntries cache files now es) ∧
      ∃ map, StorageBinFreeMap.Rebuilt cache.layout (validEntries cache files now es) map ∧
        ((restoredObjects cache files now es).map (·.record.weight)).sum ≤ U64_MAX ∧
        fromConfig cache files idx now =
          ⟨NativeDiskCacheState.empty.insertAllRestored (restoredObjects cache files now es),
            map, files⟩ := by
  have hrebu : rebuildStorageBinBackend cache files idx now =
      (StorageBinFreeMap.fromOccupied cache.layout
        (validEntries cache files now es)).bind fun map =>
          .ok (NativeDiskCacheState.empty.insertAllRestored
            (restoredObjects cache files now es), map) := by
    rw [rebuildStorageBinBackend, hread]
    simp only [foldl_restoreEntry, nil_append]
    rfl
  rw [fromConfig, hrebu]
  by_cases hfits : StorageBinFreeMap.Admissible cache.layout
      (validEntries cache files now es)
  · obtain ⟨map, hmap, hbuilt⟩ := StorageBinFreeMap.fromOccupied_eq hfits
    have hsum := (hbuilt.divides_lost hfits).sum_le hbuilt.binCapacity
    rw [map_append, sum_append, ← weights_survivors] at hsum
    have hmax := cache.layout.maxSizeBytes_le
    have hle : ((restoredObjects cache files now es).map (·.record.weight)).sum ≤
        cache.maxBytes := (Nat.le_add_right _ _).trans hsum
    have hby := @NativeDiskCacheState.insertAllRestored_bytes StorageBinObjectLocation
      NativeDiskCacheState.empty (restoredObjects cache files now es)
      (by rw [NativeDiskCacheState.empty, zero_add]; exact hle.trans hmax)
    refine Or.inr ⟨hfits, map, hbuilt, hle.trans hmax, ?_⟩
    rw [hmap]
    refine prune_of_le ?_
    rw [hby, NativeDiskCacheState.empty, zero_add]
    exact hle
  · refine Or.inl ⟨hfits, ?_⟩
    cases hmap : StorageBinFreeMap.fromOccupied cache.layout
        (validEntries cache files now es) with
    | error e => rfl
    | ok map => exact absurd (StorageBinFreeMap.fromOccupied_ok hmap) hfits

theorem accounted_new (cache : NativeDiskCache) (files : BinFiles) :
    Accounted cache ⟨NativeDiskCacheState.empty, StorageBinFreeMap.new cache.layout, files⟩ where
  coherent := NativeDiskCacheState.coherent_empty
  sized _ _ hfound := by cases hfound
  capacity := rfl
  divides := ⟨[], StorageBinFreeMap.divides_new cache.layout⟩

/-- Different keys: the restarted cache is in order. -/
theorem accounted_restored {map : StorageBinFreeMap}
    (hfits : StorageBinFreeMap.Admissible cache.layout
      (validEntries cache files now es))
    (hbuilt : StorageBinFreeMap.Rebuilt cache.layout
      (validEntries cache files now es) map)
    (hsum : ((restoredObjects cache files now es).map (·.record.weight)).sum ≤ U64_MAX)
    (hkeys : ((restoredObjects cache files now es).map (·.combined)).Nodup) :
    Accounted cache ⟨NativeDiskCacheState.empty.insertAllRestored
      (restoredObjects cache files now es), map, files⟩ := by
  have hrec : ∀ obj ∈ restoredObjects cache files now es,
      obj.record.weight = obj.record.location.len := by
    intro obj hobj
    obtain ⟨found, hfound, rfl⟩ := mem_map.1 hobj
    rw [(of_mem_survivors hfound).2.1]
  have hloc : (restoredObjects cache files now es).map (·.record.location) =
      (validEntries cache files now es).map (·.location) := by
    simp only [map_map]
    refine map_congr_left fun found hfound => ?_
    simp only [Function.comp_apply, (of_mem_survivors hfound).2.1]
  refine ⟨NativeDiskCacheState.coherent_empty.insertAllRestored hkeys (fun _ _ => rfl) ?_,
    NativeDiskCacheState.insertAllRestored_forall (fun _ _ hfound => by cases hfound) hrec,
    hbuilt.binCapacity, (StorageBinFreeMap.lostBins cache.layout
      (validEntries cache files now es) map).map (·.location),
    Partitioned.perm (hbuilt.divides_lost hfits) ?_⟩
  · rw [NativeDiskCacheState.empty, zero_add]
    exact hsum
  · refine Perm.append_right _ ?_
    have hents := congrArg (List.map (·.location))
      (@NativeDiskCacheState.insertAllRestored_entries StorageBinObjectLocation
        NativeDiskCacheState.empty _ hkeys fun _ _ => rfl)
    rw [map_map] at hents
    rw [← hloc]
    refine (reverse_perm _).symm.trans (Perm.of_eq ?_)
    refine Eq.trans ?_ hents.symm
    simp [NativeDiskCacheState.empty, map_reverse]

/-- A call of the cache. -/
inductive DiskEvent where
  | store (now : Clock) (nonce : Bytes) (key : NativeDiskCacheStoreKey)
      (entry : NativeMemoryCacheEntry)
  | get (now : Clock) (key : Text) (requestVariantKey : List Text → Option Text)
  | evictOldest
  | remove (combinedKey : Text)

/-- One operation. -/
def step (cache : NativeDiskCache) (t : StorageBinTier) : DiskEvent → StorageBinTier
  | .store now nonce key entry => (t.storeInner cache now nonce key entry).2
  | .get now key requestVariantKey => (t.get cache now key requestVariantKey).2
  | .evictOldest => t.evictOldest.2
  | .remove combinedKey => (t.removeCombined combinedKey).2

theorem Accounted.step (h : Accounted cache t) (e : DiskEvent) :
    Accounted cache (t.step cache e) := by
  cases e with
  | store now nonce key entry => exact h.storeInner now nonce key entry
  | get now key requestVariantKey => exact h.get now key requestVariantKey
  | evictOldest => exact h.evictOldest
  | remove ckey => exact h.removeCombined ckey

/-- No key comes twice among the objects of an index whose places can be used. -/
def NoKeyTwice (cache : NativeDiskCache) (files : BinFiles) (now : Clock)
    (entries : List StorageBinIndexEntry) : Prop :=
  StorageBinFreeMap.Admissible cache.layout (validEntries cache files now entries) →
    ((restoredObjects cache files now entries).map (·.combined)).Nodup

/-- **From the state that is rebuilt of an index, every run of stores, lookups, evictions and
removals keeps the tables in agreement, with the counter the sum of the weights and within the
limit, exactly if no key comes twice among the objects that the index leads to.** -/
theorem disk_tables_coherent_iff (cache : NativeDiskCache) (files : BinFiles) (index : Option Bytes)
    (now : Clock) {entries : List StorageBinIndexEntry}
    (hread : readStorageBinIndex cache.layout index = .ok entries) :
    (∀ events : List DiskEvent,
      let t := events.foldl (step cache) (fromConfig cache files index now)
      t.state.Coherent ∧ t.state.bytes ≤ cache.maxBytes) ↔
    NoKeyTwice cache files now entries := by
  constructor
  · intro hruns hfits
    obtain ⟨hnot, -⟩ | ⟨-, map, hbuilt, hsum, heq⟩ :=
      @fromConfig_cases cache files now _ index hread
    · exact absurd hfits hnot
    by_contra hagain
    have hpos : ∀ obj ∈ restoredObjects cache files now entries, 0 < obj.record.weight := by
      intro obj hobj
      obtain ⟨found, hfound, rfl⟩ := mem_map.1 hobj
      rw [(of_mem_survivors hfound).2.1]
      exact (hfits.1 found.1 (mem_map_of_mem hfound)).1
    have hahead := @NativeDiskCacheState.insertAllRestored_again StorageBinObjectLocation
      NativeDiskCacheState.empty (restoredObjects cache files now entries) (Nat.zero_le _)
      (fun _ _ hfound => by cases hfound) hpos (fun h => hagain h.1)
      (by rw [NativeDiskCacheState.empty, zero_add]; exact hsum)
    have hstart := (hruns []).1.bytes
    rw [heq] at hstart
    exact absurd hstart hahead.ne'
  · intro hkeys events
    have hstart : Accounted cache (fromConfig cache files index now) := by
      obtain ⟨-, heq⟩ | ⟨hfits, map, hbuilt, hsum, heq⟩ :=
        @fromConfig_cases cache files now _ index hread
      · rw [heq]
        exact accounted_new cache files
      · rw [heq]
        exact accounted_restored hfits hbuilt hsum (hkeys hfits)
    have hend : Accounted cache (events.foldl (step cache) (fromConfig cache files index now)) :=
      Run.foldl_invariant (P := Accounted cache) (fun _ e ht => ht.step e) hstart events
    exact ⟨hend.coherent, hend.bytes_le⟩

/-- A cache with bins of 1024 bytes. -/
def smallCache : NativeDiskCache where
  layout := ⟨1024, 2048, by decide, by decide⟩
  maxObjectBytes := 1024
  encryption := none
  bodySha256 _ := .zero
  staleReuseForbidden _ := false

/-- The start of Unix time. -/
def startClock : Clock := ⟨0, UNIX_EPOCH⟩

/-- A response with an empty body that is fresh for a minute. -/
def freshEntry : NativeMemoryCacheEntry :=
  { NativeMemoryCacheEntry.empty with expiresAt := 60 * NANOS }

/-- A key without tags. -/
def storedKey : NativeDiskCacheStoreKey where
  combined := ⟨ascii "k", by decide⟩
  primary := ⟨ascii "k", by decide⟩
  userTag := ⟨ascii "v", by decide⟩
  indexPath := none
  cacheTags := []
  varyFields := []

/-- The object of the key. -/
def storedBytes : Bytes :=
  ((smallCache.encodeObject startClock [] storedKey freshEntry).toOption).getD []

/-- A bin in which the object stands twice. -/
def twiceInBin : BinFiles := (∅ : BinFiles).insert 0 (storedBytes ++ storedBytes)

/-- An entry for the object at an offset. -/
def entryAt (offset : ℕ) : StorageBinIndexEntry :=
  ⟨ascii "k", ⟨0, offset, storedBytes.length⟩, 0, by decide⟩

/-- The index of some of the entries. -/
def indexOf (entries : List StorageBinIndexEntry) : Bytes :=
  terminated (STORAGE_BIN_INDEX_MAGIC_V1 :: entries.map indexLine)

theorem disk_tables_coherent_iff_single :
    (fromConfig smallCache twiceInBin (some (indexOf [entryAt 0])) startClock).state.objects.keys =
      [storedKey.combined] ∧
    ∀ events : List DiskEvent,
      let t := events.foldl (step smallCache)
        (fromConfig smallCache twiceInBin (some (indexOf [entryAt 0])) startClock)
      t.state.Coherent ∧ t.state.bytes ≤ smallCache.maxBytes := by
  have hread : readStorageBinIndex smallCache.layout (some (indexOf [entryAt 0])) =
      .ok [entryAt 0] := by decide +kernel
  refine ⟨by decide +kernel, ?_⟩
  refine (disk_tables_coherent_iff smallCache twiceInBin _ startClock hread).2 fun _ => ?_
  decide +kernel

/-- The reader accepts an index that lists both places under the one key.  The restarted cache
holds one object and counts two. -/
theorem twice_in_index_counts_twice :
    readStorageBinIndex smallCache.layout (some (indexOf [entryAt 0, entryAt storedBytes.length])) =
      .ok [entryAt 0, entryAt storedBytes.length] ∧
    let t := fromConfig smallCache twiceInBin
      (some (indexOf [entryAt 0, entryAt storedBytes.length])) startClock
    t.state.objects.keys = [storedKey.combined] ∧ 0 < t.state.weights ∧
      t.state.bytes = 2 * t.state.weights := by
  decide +kernel

end StorageBinTier

end Fluxheim.Cache
