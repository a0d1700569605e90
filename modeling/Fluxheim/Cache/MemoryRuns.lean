import Fluxheim.Cache.MemoryState

/-!
# Runs of the memory cache

The counter is the sum of the weights and of what is still owed to it, and the purge index and the
variants name objects.  Every critical section keeps this, and a prune brings the cache below its
limit and removes only what is past its time or oldest.
-/

namespace Fluxheim.Cache

open Ascii List AList

/-- Every list holds variants of its own primary key. -/
def Based (variants : Variants) : Prop :=
  ∀ primary listed, variants.lookup primary = some listed →
    ∀ variant ∈ listed, IsVariantOf primary variant.key

namespace Based

variable {variants : Variants}

theorem empty : Based ∅ := fun _ _ hlist => by cases hlist

theorem retain (h : Based variants) (key : Text) :
    Based (variants.retain (retainVariants key)) := by
  intro primary listed hlist variant hvar
  rw [lookup_retain] at hlist
  obtain ⟨before, hpre, hrest⟩ := Option.bind_eq_some_iff.1 hlist
  simp only [retainVariants] at hrest
  split_ifs at hrest
  cases hrest
  exact h primary before hpre variant (mem_filter.1 hvar).1

theorem erase (h : Based variants) (primary : Text) : Based (variants.erase primary) := by
  intro p listed hlist
  by_cases hp : p = primary
  · subst hp
    rw [lookup_erase] at hlist
    cases hlist
  · rw [lookup_erase_ne hp] at hlist
    exact h p listed hlist

theorem replaceVariant (h : Based variants) {primary : Text} {variant : NativeMemoryCacheVariant}
    (hvar : IsVariantOf primary variant.key) :
    Based (Cache.replaceVariant variants primary variant) := by
  intro p listed hlist found hfound
  by_cases hp : p = primary
  · subst hp
    rw [Cache.replaceVariant, lookup_insert] at hlist
    cases hlist
    rcases mem_append.1 hfound with hold | hnew
    · cases hpre : variants.lookup p with
      | none =>
        rw [hpre] at hold
        cases hold
      | some before =>
        rw [hpre] at hold
        exact h p before hpre found (mem_filter.1 hold).1
    · rwa [mem_singleton.1 hnew]
  · rw [Cache.replaceVariant, lookup_insert_ne hp] at hlist
    exact h p listed hlist found hfound

end Based

namespace NativeMemoryCacheState

variable {s : NativeMemoryCacheState} {owed : ℕ}

/-- The weights of the stored entries. -/
def weights (s : NativeMemoryCacheState) : ℕ := s.objects.weightSum (·.weight.1)

/-- The tables agree with the objects; the counter is ahead by the weight of entries that have
been removed in the same critical section. -/
structure Coherent (owed : ℕ) (s : NativeMemoryCacheState) : Prop where
  bytes : s.bytes = s.weights + owed
  fits : s.bytes ≤ U64_MAX
  purge : ∀ key ∈ s.purgeIndex, key ∈ s.objects
  variants : Named s.objects s.variants
  based : Based s.variants

theorem coherent_empty : Coherent 0 empty where
  bytes := rfl
  fits := Nat.zero_le _
  purge _ hkey := absurd hkey (CachePurgeIndex.not_mem_empty _)
  variants := Named.empty _
  based := Based.empty

/-- The counter is brought up to date. -/
theorem Coherent.settle (h : Coherent owed s) : Coherent 0 { s with bytes := s.bytes - owed } where
  bytes := by
    show s.bytes - owed = s.weights + 0
    rw [h.bytes]
    omega
  fits := (Nat.sub_le _ _).trans h.fits
  purge := h.purge
  variants := h.variants
  based := h.based

variable {key skey k : Text}

theorem removeEntry_of_none (hnone : s.objects.lookup key = none) :
    s.removeEntry key = (none, s) := by
  rw [removeEntry, hnone]

variable {entry : NativeMemoryCacheEntry}

theorem removeEntry_of_some (hentry : s.objects.lookup key = some entry) :
    s.removeEntry key = (some entry,
      { s.eraseEntry key with variants := s.variants.retain (retainVariants key) }) := by
  rw [removeEntry, hentry]

theorem purge_eraseEntry (h : ∀ key ∈ s.purgeIndex, key ∈ s.objects) (key : Text) :
    ∀ k ∈ (s.eraseEntry key).purgeIndex, k ∈ (s.eraseEntry key).objects := by
  intro k hk
  obtain ⟨hne, hmem⟩ := CachePurgeIndex.mem_removeCombined.1 hk
  exact mem_erase.2 ⟨hne, h k hmem⟩

theorem Coherent.bytes_eraseEntry (h : Coherent owed s)
    (hentry : s.objects.lookup key = some entry) :
    s.bytes = (s.objects.erase key).weightSum (·.weight.1) + (owed + entry.weight.1) := by
  rw [h.bytes, weights, weightSum_erase hentry]
  omega

/-- An entry that is removed is owed to the counter. -/
theorem Coherent.removeEntry (h : Coherent owed s) (hentry : s.objects.lookup key = some entry) :
    Coherent (owed + entry.weight.1) (s.removeEntry key).2 := by
  rw [removeEntry_of_some hentry]
  exact ⟨h.bytes_eraseEntry hentry, h.fits, purge_eraseEntry h.purge key, h.variants.retain key,
    h.based.retain key⟩

theorem Coherent.dropEntry (h : Coherent owed s) (key : Text) :
    Coherent owed (s.dropEntry key) := by
  rw [NativeMemoryCacheState.dropEntry]
  cases hentry : s.objects.lookup key with
  | none =>
    rw [removeEntry_of_none hentry]
    exact h
  | some entry =>
    have hrem := h.removeEntry hentry
    rw [removeEntry_of_some hentry] at hrem ⊢
    refine { hrem with bytes := ?_, fits := (Nat.sub_le _ _).trans h.fits }
    show s.bytes - entry.weight.1 = (s.objects.erase key).weightSum (·.weight.1) + owed
    have hby' := h.bytes_eraseEntry hentry
    omega

theorem dropEntry_lookup (s : NativeMemoryCacheState) (key k : Text) :
    (s.dropEntry key).objects.lookup k = (s.objects.erase key).lookup k := by
  rw [dropEntry]
  cases hentry : s.objects.lookup key with
  | none =>
    rw [removeEntry_of_none hentry]
    by_cases hk : k = key
    · subst hk
      rw [lookup_erase]
      exact hentry
    · rw [lookup_erase_ne hk]
  | some entry =>
    rw [removeEntry_of_some hentry]
    rfl

variable {acc : ℕ × NativeMemoryCacheState}

/-- The variants of one key; the lists that are left are of other keys, and name none of them. -/
theorem Coherent.removeVariant {base : Text}
    (h : Coherent acc.1 acc.2) (hbase : acc.2.variants.lookup base = none)
    {variant : NativeMemoryCacheVariant} (hvar : IsVariantOf base variant.key) :
    Coherent (NativeMemoryCacheState.removeVariant acc variant).1
        (NativeMemoryCacheState.removeVariant acc variant).2 ∧
      (NativeMemoryCacheState.removeVariant acc variant).2.variants.lookup base = none := by
  rw [NativeMemoryCacheState.removeVariant]
  cases hentry : acc.2.objects.lookup variant.key with
  | none => exact ⟨h, hbase⟩
  | some entry =>
    have hby := h.bytes_eraseEntry hentry
    have hfits := h.fits
    have howed : saturatingAdd acc.1 entry.weight.1 = acc.1 + entry.weight.1 := by
      rw [saturatingAdd]
      omega
    dsimp only
    rw [howed]
    refine ⟨⟨hby, h.fits, purge_eraseEntry h.purge variant.key, ?_, h.based⟩, hbase⟩
    intro primary listed hlist other hother
    refine mem_erase.2 ⟨fun heq => ?_, h.variants primary listed hlist other hother⟩
    have hsame : primary = base :=
      (h.based primary listed hlist other hother).unique (heq ▸ hvar)
    have hnone : acc.2.variants.lookup primary = none := hsame ▸ hbase
    exact absurd (hnone.symm.trans hlist) (by simp)

theorem Coherent.removeVariants (h : Coherent 0 s) (base : Text) :
    Coherent (s.removeVariants base).1 (s.removeVariants base).2 := by
  rw [NativeMemoryCacheState.removeVariants]
  cases hlist : s.variants.lookup base with
  | none => exact h
  | some listed =>
    have hvar : ∀ variant ∈ listed, IsVariantOf base variant.key := h.based base listed hlist
    have hstart : Coherent 0 { s with variants := s.variants.erase base } :=
      { h with variants := h.variants.erase base, based := h.based.erase base }
    have hbase : (s.variants.erase base).lookup base = none := lookup_erase _ _
    suffices hfold : ∀ acc : ℕ × NativeMemoryCacheState, Coherent acc.1 acc.2 →
        acc.2.variants.lookup base = none →
        Coherent (listed.foldl NativeMemoryCacheState.removeVariant acc).1
          (listed.foldl NativeMemoryCacheState.removeVariant acc).2 from
      hfold (0, _) hstart hbase
    clear hlist
    induction listed with
    | nil => exact fun acc hacc _ => hacc
    | cons variant listed ih =>
      intro acc hacc hnone
      obtain ⟨hnext, hnone'⟩ := hacc.removeVariant hnone (hvar variant mem_cons_self)
      exact ih (fun other hother => hvar other (mem_cons_of_mem _ hother)) _ hnext hnone'

/-- A state in which one more key may be named than there are objects. -/
structure Prepared (storeKey : Text) (entry : NativeMemoryCacheEntry) (s : NativeMemoryCacheState) :
    Prop where
  bytes : s.bytes = s.weights
  purge : ∀ key ∈ s.purgeIndex, key ∈ s.objects.insert storeKey entry
  variants : Named (s.objects.insert storeKey entry) s.variants
  based : Based s.variants

theorem bytesWithout_eq (h : s.bytes = s.weights) (key : Text) :
    s.bytesWithout key = (s.objects.erase key).weightSum (·.weight.1) := by
  rw [bytesWithout]
  cases hentry : s.objects.lookup key with
  | none =>
    rw [weightSum_erase_of_notMem (lookup_eq_none.1 hentry)]
    exact h
  | some entry =>
    dsimp only
    rw [h, weights, weightSum_erase hentry, Nat.add_sub_cancel_left]

theorem Prepared.insertEntry (h : Prepared skey entry s)
    (hsum : s.bytesWithout skey + entry.weight.1 ≤ U64_MAX) :
    Coherent 0 (s.insertEntry skey entry) where
  bytes := by
    show saturatingAdd (s.bytesWithout skey) entry.weight.1 = _
    rw [weights, NativeMemoryCacheState.insertEntry, weightSum_insert,
      ← bytesWithout_eq h.bytes, saturatingAdd]
    omega
  fits := min_le_right _ _
  purge := h.purge
  variants := h.variants
  based := h.based

theorem Coherent.prepared (h : Coherent 0 s) (skey : Text) (entry : NativeMemoryCacheEntry) :
    Prepared skey entry s where
  bytes := h.bytes
  purge key hkey := (mem_insert _).2 (Or.inr (h.purge key hkey))
  variants := h.variants.mono fun _ hkey => (mem_insert _).2 (Or.inr hkey)
  based := h.based

/-- The new key is listed as a variant. -/
theorem Prepared.replaceVariant
    (h : Prepared skey entry s) (hvar : IsVariantOf key skey) (fields : List Text) :
    Prepared skey entry
      { s with variants := replaceVariant s.variants key ⟨fields, skey⟩ } where
  bytes := h.bytes
  purge := h.purge
  variants := h.variants.replaceVariant key ((mem_insert _).2 (Or.inl rfl))
  based := h.based.replaceVariant hvar

/-- The new key is entered in the purge index. -/
theorem Prepared.purgeIndex (h : Prepared skey entry s) {r : CachePurgeIndexEntry}
    (hrec : r.combinedKey = skey) :
    Prepared skey entry
      { s with purgeIndex := s.purgeIndex.insertWithPathAndTags r } where
  bytes := h.bytes
  purge key hkey := by
    rcases CachePurgeIndex.mem_insertWithPathAndTags.1 hkey with rfl | hkey
    · exact (mem_insert _).2 (Or.inl hrec)
    · exact h.purge key hkey
  variants := h.variants
  based := h.based

/-- The key under which a response is stored. -/
def storeKeyFor (digest : Bytes → Variance) (key : Text) (headers : List Header) :
    Option (List Text) → Text
  | none => key
  | some fields => nativeVaryCacheKey digest key fields headers

variable {digest : Bytes → Variance} {headers : List Header} {varyFields : Option (List Text)}

theorem Coherent.prepareStore (h : Coherent 0 s) :
    Prepared (storeKeyFor digest key headers varyFields) entry
      (s.prepareStore key (storeKeyFor digest key headers varyFields) varyFields) := by
  cases varyFields with
  | none => exact ((h.removeVariants key).settle.dropEntry _).prepared _ _
  | some fields =>
    exact (((h.dropEntry key).dropEntry _).prepared _ _).replaceVariant
      (isVariantOf_key digest key fields headers) fields

theorem Coherent.storeEntry (h : Coherent 0 s) (purge : PurgeFields)
    (hsum : (s.prepareStore key (storeKeyFor digest key headers varyFields) varyFields).bytesWithout
      (storeKeyFor digest key headers varyFields) + entry.weight.1 ≤ U64_MAX) :
    Coherent 0
      (s.storeEntry key (storeKeyFor digest key headers varyFields) varyFields purge entry) :=
  (h.prepareStore.purgeIndex rfl).insertEntry hsum

theorem Coherent.promoteEntry (h : Coherent 0 s)
    (hsum : (s.preparePromotion key (storeKeyFor digest key headers varyFields)
      varyFields).bytesWithout
      (storeKeyFor digest key headers varyFields) + entry.weight.1 ≤ U64_MAX) :
    Coherent 0 (s.promoteEntry key (storeKeyFor digest key headers varyFields) varyFields
      entry) := by
  refine Prepared.insertEntry ?_ hsum
  cases varyFields with
  | none => exact h.prepared _ _
  | some fields =>
    exact (h.prepared _ _).replaceVariant (isVariantOf_key digest key fields headers) fields

theorem Coherent.getVariant (h : Coherent 0 s) (now : ℤ) (listed : List NativeMemoryCacheVariant) :
    Coherent 0 (getVariant digest now key headers listed s).2 := by
  induction listed with
  | nil => exact h
  | cons variant listed ih =>
    rw [NativeMemoryCacheState.getVariant]
    split_ifs
    · exact ih
    · split
      · exact ih
      · split_ifs
        · exact h
        · exact h.dropEntry _
        · exact h

theorem Coherent.getPlain (h : Coherent 0 s) (now : ℤ) (key : Text) :
    Coherent 0 (s.getPlain now key).2 := by
  rw [NativeMemoryCacheState.getPlain]
  split_ifs
  · exact h
  · split
    · exact h
    · split_ifs
      · exact h
      · exact h.dropEntry _
      · exact h

theorem Coherent.get (h : Coherent 0 s) (now : ℤ) :
    Coherent 0 (s.get digest now key headers).2 := by
  have hvar := @getVariant s key digest headers h now ((s.variants.lookup key).getD [])
  rw [NativeMemoryCacheState.get]
  split
  · rename_i hres
    rwa [hres] at hvar
  · rename_i hres
    rw [hres] at hvar
    exact hvar.getPlain now key

theorem Coherent.getStaleVariant (h : Coherent 0 s) (now : ℤ) (serves : Bool → Bool)
    (listed : List NativeMemoryCacheVariant) :
    Coherent 0 (getStaleVariant digest now key headers serves listed s).2 := by
  induction listed with
  | nil => exact h
  | cons variant listed ih =>
    rw [NativeMemoryCacheState.getStaleVariant]
    split_ifs
    · exact ih
    · split
      · exact ih
      · split_ifs
        · exact h
        · exact h.dropEntry _
        · exact ih

theorem Coherent.getStalePlain (h : Coherent 0 s) (now : ℤ) (key : Text) (serves : Bool → Bool) :
    Coherent 0 (s.getStalePlain now key serves).2 := by
  rw [NativeMemoryCacheState.getStalePlain]
  split_ifs
  · exact h
  · split
    · exact h
    · split_ifs
      · exact h
      · exact h.dropEntry _
      · exact h

theorem Coherent.getStale (h : Coherent 0 s) (now : ℤ) (serves : Bool → Bool) :
    Coherent 0 (s.getStale digest now key headers serves).2 := by
  have hvar := @getStaleVariant s key digest headers h now serves
    ((s.variants.lookup key).getD [])
  rw [NativeMemoryCacheState.getStale]
  split
  · rename_i hres
    rwa [hres] at hvar
  · rename_i hres
    rw [hres] at hvar
    exact hvar.getStalePlain now key serves

/-! ### Pruning -/

/-- The keys of a list are removed; all that is removed is owed to the counter. -/
theorem Coherent.removeExpired (h : Coherent acc.1 acc.2) (keys : List Text) :
    Coherent (keys.foldl NativeMemoryCacheState.removeExpired acc).1
      (keys.foldl NativeMemoryCacheState.removeExpired acc).2 := by
  refine Run.foldl_invariant (P := fun acc : ℕ × NativeMemoryCacheState => Coherent acc.1 acc.2)
    (fun acc key hacc => ?_) h keys
  rw [NativeMemoryCacheState.removeExpired]
  cases hentry : acc.2.objects.lookup key with
  | none =>
    rw [removeEntry_of_none hentry]
    exact hacc
  | some entry =>
    have hrem := hacc.removeEntry hentry
    have hby := hacc.bytes_eraseEntry hentry
    have hfits := hacc.fits
    have howed : saturatingAdd acc.1 entry.weight.1 = acc.1 + entry.weight.1 := by
      rw [saturatingAdd]
      omega
    rw [removeEntry_of_some hentry] at hrem ⊢
    dsimp only
    rw [howed]
    exact hrem

theorem removeExpired_lookup (keys : List Text) (acc : ℕ × NativeMemoryCacheState) (k : Text) :
    (keys.foldl removeExpired acc).2.objects.lookup k =
      if k ∈ keys then none else acc.2.objects.lookup k := by
  induction keys generalizing acc with
  | nil => rfl
  | cons key keys ih =>
    have hstep : (removeExpired acc key).2.objects.lookup k =
        if k = key then none else acc.2.objects.lookup k := by
      rw [removeExpired]
      cases hentry : acc.2.objects.lookup key with
      | none =>
        rw [removeEntry_of_none hentry]
        split_ifs with hk
        · rw [hk]
          exact hentry
        · rfl
      | some entry =>
        rw [removeEntry_of_some hentry]
        show (acc.2.objects.erase key).lookup k = _
        split_ifs with hk
        · rw [hk, lookup_erase]
        · rw [lookup_erase_ne hk]
    rw [foldl_cons, ih, hstep]
    by_cases hkeys : k ∈ keys
    · rw [if_pos hkeys, if_pos (mem_cons_of_mem _ hkeys)]
    · by_cases hk : k = key
      · rw [if_neg hkeys, if_pos hk, if_pos (hk ▸ mem_cons_self)]
      · rw [if_neg hkeys, if_neg hk, if_neg]
        rw [mem_cons, not_or]
        exact ⟨hk, hkeys⟩

theorem Coherent.dropExpired (h : Coherent 0 s) (now : ℤ) : Coherent 0 (s.dropExpired now) :=
  (@removeExpired (0, s) h (s.expiredKeys now)).settle

theorem mem_expiredKeys {now : ℤ} :
    k ∈ s.expiredKeys now ↔ ∃ entry, s.objects.lookup k = some entry ∧ staleUntil entry ≤ now := by
  rw [expiredKeys, mem_map]
  constructor
  · rintro ⟨e, he, rfl⟩
    obtain ⟨hmem, hold⟩ := mem_filter.1 he
    exact ⟨e.2, mem_lookup_iff.2 hmem, of_decide_eq_true hold⟩
  · rintro ⟨entry, hentry, hold⟩
    exact ⟨⟨k, entry⟩, mem_filter.2 ⟨mem_lookup_iff.1 hentry, decide_eq_true hold⟩, rfl⟩

/-- What is left is what is not past its time. -/
theorem dropExpired_lookup (s : NativeMemoryCacheState) (now : ℤ) (k : Text) :
    (s.dropExpired now).objects.lookup k = (s.objects.lookup k).filter (now < staleUntil ·) := by
  show ((s.expiredKeys now).foldl removeExpired (0, s)).2.objects.lookup k = _
  rw [removeExpired_lookup]
  cases hentry : s.objects.lookup k with
  | none => simp
  | some entry =>
    by_cases hold : staleUntil entry ≤ now
    · rw [if_pos (mem_expiredKeys.2 ⟨entry, hentry, hold⟩), Option.filter_some, if_neg]
      exact fun hlt => not_le.2 (of_decide_eq_true hlt) hold
    · have hkept : k ∉ s.expiredKeys now := by
        intro hmem
        obtain ⟨found, hfound, hle⟩ := mem_expiredKeys.1 hmem
        rw [hentry] at hfound
        cases hfound
        exact hold hle
      rw [if_neg hkept, Option.filter_some, if_pos (decide_eq_true (not_le.1 hold))]

/-- The loop by age drops the entries of an initial part of the list, and stops only when the
counter is below the limit. -/
theorem dropOldest_spec (maxB : ℕ) (l : List (ℤ × Text)) (h : Coherent 0 s) :
    Coherent 0 (dropOldest maxB l s) ∧
    ∃ dropped kept, l = dropped ++ kept ∧
      (∀ k, (dropOldest maxB l s).objects.lookup k =
        if k ∈ dropped.map (·.2) then none else s.objects.lookup k) ∧
      (kept = [] ∨ (dropOldest maxB l s).bytes ≤ maxB) := by
  induction l generalizing s with
  | nil => exact ⟨h, [], [], rfl, fun _ => rfl, Or.inl rfl⟩
  | cons p l ih =>
    obtain ⟨storedAt, key⟩ := p
    rw [dropOldest]
    by_cases hle : s.bytes ≤ maxB
    · rw [if_pos hle]
      exact ⟨h, [], (storedAt, key) :: l, rfl, fun _ => rfl, Or.inr hle⟩
    · rw [if_neg hle]
      obtain ⟨hcoh, dropped, kept, rfl, hlookup, hend⟩ := ih (h.dropEntry key)
      refine ⟨hcoh, (storedAt, key) :: dropped, kept, rfl, fun k => ?_, hend⟩
      rw [hlookup, dropEntry_lookup, map_cons]
      by_cases hk : k = key
      · subst hk
        rw [lookup_erase, if_pos mem_cons_self, ite_self]
      · rw [lookup_erase_ne hk]
        simp only [mem_cons, hk, false_or]

theorem mem_byAge {order : AgeSort} {p : ℤ × Text} :
    p ∈ s.byAge order ↔ ∃ entry, s.objects.lookup p.2 = some entry ∧ entry.storedAt = p.1 := by
  rw [byAge, (order.perm _).mem_iff, mem_map]
  constructor
  · rintro ⟨e, he, rfl⟩
    exact ⟨e.2, mem_lookup_iff.2 he, rfl⟩
  · rintro ⟨entry, hentry, hstore⟩
    exact ⟨⟨p.2, entry⟩, mem_lookup_iff.1 hentry, Prod.ext hstore rfl⟩

theorem actualBytes_eq (h : s.weights ≤ U64_MAX) : s.actualBytes = s.weights := by
  rw [actualBytes, StorageBinFreeMap.foldl_saturatingAdd _ (Nat.zero_le _), zero_add]
  exact min_eq_left h

/-- The corrections at the end of a prune find nothing to correct. -/
theorem Coherent.prune_eq (h : Coherent 0 s) (now : ℤ) (order : AgeSort) (maxB : ℕ) :
    s.prune now order maxB =
      if maxB < (s.dropExpired now).bytes then
        dropOldest maxB ((s.dropExpired now).byAge order) (s.dropExpired now)
      else s.dropExpired now := by
  rw [prune]
  dsimp only
  split_ifs with hover hempty
  · -- without objects the counter is zero
    have hlast := (dropOldest_spec maxB ((s.dropExpired now).byAge order)
      (h.dropExpired now)).1
    have hzero : (dropOldest maxB ((s.dropExpired now).byAge order)
        (s.dropExpired now)).weights = 0 := by
      rw [weights, weightSum, hempty.1]
      rfl
    have hby := hlast.bytes
    omega
  · have hlast := (dropOldest_spec maxB ((s.dropExpired now).byAge order)
      (h.dropExpired now)).1
    have hby := hlast.bytes
    have hfits := hlast.fits
    rw [actualBytes_eq (by omega), min_eq_left (by omega)]
  · rfl

theorem Coherent.prune (h : Coherent 0 s) (now : ℤ) (order : AgeSort) (maxB : ℕ) :
    Coherent 0 (s.prune now order maxB) := by
  rw [h.prune_eq]
  split_ifs
  · exact (dropOldest_spec _ _ (h.dropExpired now)).1
  · exact h.dropExpired now

/-- **After a prune the counter is within the limit.** -/
theorem Coherent.prune_bytes_le (h : Coherent 0 s) (now : ℤ) (order : AgeSort) (maxBytes : ℕ) :
    (s.prune now order maxBytes).bytes ≤ maxBytes := by
  rw [h.prune_eq]
  split_ifs with hover
  · obtain ⟨hlast, dropped, kept, hlist, hlookup, hend⟩ :=
      dropOldest_spec maxBytes ((s.dropExpired now).byAge order) (h.dropExpired now)
    rcases hend with rfl | hle
    · -- all keys have been gone through
      rw [append_nil] at hlist
      have hnone : ∀ k, (dropOldest maxBytes ((s.dropExpired now).byAge order)
          (s.dropExpired now)).objects.lookup k = none := by
        intro k
        rw [hlookup]
        split_ifs with hk
        · rfl
        · cases hentry : (s.dropExpired now).objects.lookup k with
          | none => rfl
          | some entry =>
            refine absurd (mem_map.2 ⟨(entry.storedAt, k), ?_, rfl⟩) hk
            rw [← hlist]
            exact mem_byAge.2 ⟨entry, hentry, rfl⟩
      have hempty : (dropOldest maxBytes ((s.dropExpired now).byAge order)
          (s.dropExpired now)).objects.entries = [] := by
        refine eq_nil_iff_forall_not_mem.2 fun e he => ?_
        have hfound := mem_lookup_iff.2 he
        rw [hnone] at hfound
        cases hfound
      have hby := hlast.bytes
      rw [weights, weightSum, hempty] at hby
      rw [hby]
      exact Nat.zero_le _
    · exact hle
  · exact not_lt.1 hover

/-- **A prune removes what is past its time, and what was not stored after anything it keeps.** -/
theorem Coherent.prune_removed (h : Coherent 0 s) (now : ℤ) (order : AgeSort) (maxB : ℕ)
    {k' : Text} {removed kept : NativeMemoryCacheEntry}
    (hpre : s.objects.lookup k = some removed) (hgone : k ∉ (s.prune now order maxB).objects)
    (hkept : (s.prune now order maxB).objects.lookup k' = some kept) :
    staleUntil removed ≤ now ∨ removed.storedAt ≤ kept.storedAt := by
  refine or_iff_not_imp_left.2 fun hfresh => ?_
  have hstart : (s.dropExpired now).objects.lookup k = some removed := by
    rw [dropExpired_lookup, hpre]
    simp [not_le.1 hfresh]
  rw [h.prune_eq] at hgone hkept
  rw [← lookup_eq_none] at hgone
  split_ifs at hgone hkept
  · obtain ⟨-, dropped, rest, hlist, hlookup, -⟩ :=
      dropOldest_spec maxB ((s.dropExpired now).byAge order) (h.dropExpired now)
    rw [hlookup] at hgone hkept
    split_ifs at hgone hkept with hdrop hk
    · -- the entry that goes is in the first part of the sorted list, the other in the second
      have hsorted := order.sorted ((s.dropExpired now).objects.entries.map fun e =>
        (e.2.storedAt, e.1))
      have hlist' : order.sort ((s.dropExpired now).objects.entries.map
          fun e => (e.2.storedAt, e.1)) = dropped ++ rest := hlist
      rw [hlist', pairwise_append] at hsorted
      obtain ⟨p, hp, hpk⟩ := mem_map.1 hdrop
      have hpmem : p ∈ (s.dropExpired now).byAge order := hlist ▸ mem_append_left _ hp
      obtain ⟨found, hfound, hstore⟩ := mem_byAge.1 hpmem
      rw [hpk, hstart] at hfound
      cases hfound
      have hkmem : (kept.storedAt, k') ∈ (s.dropExpired now).byAge order :=
        mem_byAge.2 ⟨kept, hkept, rfl⟩
      rw [hlist] at hkmem
      have hrest := (mem_append.1 hkmem).resolve_left fun hmem =>
        hk (mem_map.2 ⟨_, hmem, rfl⟩)
      rw [hstore]
      exact hsorted.2.2 p hp _ hrest
    · rw [hstart] at hgone
      cases hgone
  · rw [hstart] at hgone
    cases hgone

theorem Coherent.purgePrimary (h : Coherent 0 s) (pkey ckey : Text) :
    Coherent 0 (s.purgePrimary pkey ckey) := by
  refine settle (removeVariants ?_ pkey)
  split_ifs
  · exact (h.dropEntry _).dropEntry _
  · exact h.dropEntry _

theorem Coherent.purgeIndexed (h : Coherent 0 s) (userTag : Text)
    (scope : CachePurgeIndex.PurgeScope) (limit : ℕ) :
    Coherent 0 (s.purgeIndexed userTag scope limit) := by
  refine Run.foldl_invariant (P := Coherent 0) (fun s r hs => ?_) h _
  rw [purgeEntry]
  split
  · refine { hs with purge := fun key hkey => ?_ }
    exact hs.purge key (CachePurgeIndex.mem_removeCombined.1 hkey).2
  · exact hs.dropEntry _

end NativeMemoryCacheState

/-- The settings of the memory tier, and SHA-256 with base64. -/
structure NativeProxyMemoryCache where
  maxBytes : ℕ
  digest : Bytes → Variance

/-- A critical section. -/
inductive MemoryEvent where
  | store (key : Text) (varyFields : Option (List Text)) (headers : List Header)
      (purge : NativeMemoryCacheState.PurgeFields) (entry : NativeMemoryCacheEntry)
  | get (now : ℤ) (key : Text) (headers : List Header)
  | getStale (now : ℤ) (key : Text) (headers : List Header) (serves : Bool → Bool)
  | promote (key : Text) (varyFields : Option (List Text)) (headers : List Header)
      (entry : NativeMemoryCacheEntry)
  | prune (now : ℤ) (order : NativeMemoryCacheState.AgeSort)
  | purgePrimary (primaryKey combinedKey : Text)
  | purgeIndexed (userTag : Text) (scope : CachePurgeIndex.PurgeScope) (limit : ℕ)

namespace NativeProxyMemoryCache

open NativeMemoryCacheState

variable (cache : NativeProxyMemoryCache)

/-- One critical section. -/
def step (s : NativeMemoryCacheState) : MemoryEvent → NativeMemoryCacheState
  | .store key varyFields headers purge entry =>
    s.storeEntry key (storeKeyFor cache.digest key headers varyFields) varyFields purge entry
  | .get now key headers => (s.get cache.digest now key headers).2
  | .getStale now key headers serves => (s.getStale cache.digest now key headers serves).2
  | .promote key varyFields headers entry =>
    s.promoteEntry key (storeKeyFor cache.digest key headers varyFields) varyFields entry
  | .prune now order => s.prune now order cache.maxBytes
  | .purgePrimary primaryKey combinedKey => s.purgePrimary primaryKey combinedKey
  | .purgeIndexed userTag scope limit => s.purgeIndexed userTag scope limit

/-- The addition of the new weight does not saturate. -/
def NoSaturation (s : NativeMemoryCacheState) : MemoryEvent → Prop
  | .store key varyFields headers _ entry =>
    let storeKey := storeKeyFor cache.digest key headers varyFields
    (s.prepareStore key storeKey varyFields).bytesWithout storeKey + entry.weight.1 ≤ U64_MAX
  | .promote key varyFields headers entry =>
    let storeKey := storeKeyFor cache.digest key headers varyFields
    (s.preparePromotion key storeKey varyFields).bytesWithout storeKey + entry.weight.1 ≤ U64_MAX
  | _ => True

theorem coherent_step {cache : NativeProxyMemoryCache} {s : NativeMemoryCacheState}
    (h : Coherent 0 s) {e : MemoryEvent} (hsum : cache.NoSaturation s e) :
    Coherent 0 (cache.step s e) := by
  cases e with
  | store key varyFields headers purge entry => exact h.storeEntry purge hsum
  | get now key headers => exact h.get now
  | getStale now key headers serves => exact h.getStale now serves
  | promote key varyFields headers entry => exact h.promoteEntry hsum
  | prune now order => exact h.prune now order cache.maxBytes
  | purgePrimary pkey ckey => exact h.purgePrimary pkey ckey
  | purgeIndexed userTag scope limit => exact h.purgeIndexed userTag scope limit

/-- **In every run of critical sections in which the counter does not saturate, it is the sum of
the weights, the purge index and the variants name stored objects, and a prune at any point leaves
at most the limit and has removed only entries past their stale window or not stored later than
any entry that it keeps.** -/
theorem memory_cache_invariant (cache : NativeProxyMemoryCache) (events : List MemoryEvent)
    (hsum : Run.Along cache.step cache.NoSaturation empty events) :
    let s := events.foldl cache.step empty
    s.bytes = s.weights ∧
    (∀ key ∈ s.purgeIndex, key ∈ s.objects) ∧
    (∀ primary variants, s.variants.lookup primary = some variants →
      ∀ variant ∈ variants, variant.key ∈ s.objects) ∧
    ∀ now order,
      let pruned := s.prune now order cache.maxBytes
      pruned.bytes ≤ cache.maxBytes ∧
      ∀ key removed, s.objects.lookup key = some removed → key ∉ pruned.objects →
        staleUntil removed ≤ now ∨
        ∀ key' kept, pruned.objects.lookup key' = some kept → removed.storedAt ≤ kept.storedAt := by
  intro s
  have h : Coherent 0 s := hsum.invariant (P := Coherent 0)
    (fun s e hs he => coherent_step hs he) coherent_empty
  refine ⟨h.bytes, h.purge, h.variants, fun now order => ⟨h.prune_bytes_le now order _, ?_⟩⟩
  intro key removed hpre hgone
  by_cases hold : staleUntil removed ≤ now
  · exact Or.inl hold
  · refine Or.inr fun key' kept hkept => ?_
    exact (h.prune_removed now order _ hpre hgone hkept).resolve_left hold

/-- A cache of a hundred bytes. -/
def smallMemoryCache : NativeProxyMemoryCache :=
  ⟨100, fun _ => ⟨List.replicate 43 65, by decide +kernel⟩⟩

/-- A response that is fresh until an instant, with a weight of 60 bytes. -/
def sixtyBytes (expiresAt storedAt : ℤ) : NativeMemoryCacheEntry :=
  { NativeMemoryCacheEntry.empty with
    expiresAt := expiresAt
    storedAt := storedAt
    weight := ⟨60, by decide⟩ }

/-- Two responses that do not both fit, one of them with a `Vary` header. -/
def twoStores : List MemoryEvent :=
  [.store ⟨ascii "a", by decide⟩ none [] ⟨⟨ascii "v", Eq.refl true⟩, none, []⟩ (sixtyBytes 10 1),
    .store ⟨ascii "b", by decide⟩ (some [⟨ascii "accept", by decide⟩]) []
      ⟨⟨ascii "v", Eq.refl true⟩, none, []⟩ (sixtyBytes 20 2)]

theorem memory_cache_invariant_twoStores :
    let s := twoStores.foldl smallMemoryCache.step empty
    s.bytes = 120 ∧ s.bytes = s.weights ∧
      ∀ now order, (s.prune now order smallMemoryCache.maxBytes).bytes ≤ 100 := by
  have hsum : Run.Along smallMemoryCache.step smallMemoryCache.NoSaturation empty twoStores := by
    refine ⟨?_, ?_, trivial⟩
    · show _ + _ ≤ U64_MAX
      decide +kernel
    · show _ + _ ≤ U64_MAX
      decide +kernel
  obtain ⟨hby, -, -, hprune⟩ := memory_cache_invariant smallMemoryCache twoStores hsum
  exact ⟨by decide +kernel, hby, fun now order => (hprune now order).1⟩

end NativeProxyMemoryCache

end Fluxheim.Cache
