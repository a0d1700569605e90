import Fluxheim.Cache.DiskTier

/-!
# Space and tables of the disk cache

After a restart the free ranges, the places of the objects and the bins that nothing uses any more
divide the bins.  The loops that evict have turns enough, and the operations keep the tables in
agreement with the places handed out, so that the bytes are within the limit.
-/

namespace Fluxheim.Cache

open Ascii Spans List AList NativeDiskCacheState
open scoped ByteOrder

namespace StorageBinFreeMap

variable {map next : StorageBinFreeMap} {layout : StorageBinLayoutPlan}
  {entries : List StorageBinIndexEntry}

theorem reclaimLoop_binCapacity (n : ℕ) (map : StorageBinFreeMap) (reclaimed : List ℕ) :
    (reclaimLoop n map reclaimed).2.binCapacity = map.binCapacity := by
  induction n generalizing map reclaimed with
  | zero => rfl
  | succ n ih =>
    rw [reclaimLoop]
    split
    · split_ifs
      · rfl
      · exact (ih _ _).trans (binCapacity_congr rfl rfl)
    · rfl

/-- What is handed out of a divided map is within the budget. -/
theorem Divides.sum_le {live : List StorageBinObjectLocation} (h : map.Divides live)
    (hcap : map.binCapacity = (new layout).binCapacity) :
    (live.map (·.len)).sum ≤ layout.maxSizeBytes := by
  have hsize := h.sizes
  have hbins := sum_binCapacity (new layout) map.nextBinId
  have hmax : (new layout).maxSizeBytes = layout.maxSizeBytes := rfl
  rw [allocatedSizeBytes_eq, hcap] at hsize
  omega

/-! ### Bins that a restart loses -/

/-- A place that is a whole bin. -/
def wholeBin (layout : StorageBinLayoutPlan) (binId : ℕ) : StorageBinIndexEntry :=
  ⟨[], ⟨binId, 0, ((new layout).binCapacity binId).getD 0⟩, 0, by decide⟩

/-- The bins below the next one in which the index has nothing. -/
def lostBins (layout : StorageBinLayoutPlan) (entries : List StorageBinIndexEntry)
    (map : StorageBinFreeMap) : List StorageBinIndexEntry :=
  ((List.range map.nextBinId).filter fun binId =>
    ∀ entry ∈ entries, entry.location.binId ≠ binId).map (wholeBin layout)

theorem mem_lostBins {lost : StorageBinIndexEntry} :
    lost ∈ lostBins layout entries map ↔ ∃ binId < map.nextBinId,
      (∀ e ∈ entries, e.location.binId ≠ binId) ∧ lost = wholeBin layout binId := by
  rw [lostBins, mem_map]
  simp only [mem_filter, mem_range, decide_eq_true_eq, and_assoc]
  exact exists_congr fun binId => and_congr_right fun _ => and_congr_right fun _ => eq_comm

/-- A bin below one in use is within the budget. -/
theorem Rebuilt.capacity_pos (h : Rebuilt layout entries map) (hplaces : Admissible layout entries)
    {bin : ℕ} (hlt : bin < map.nextBinId) :
    ∃ capacity, (new layout).binCapacity bin = some capacity ∧ 0 < capacity := by
  obtain ⟨e, hentry, hle⟩ := (h.nextBinId bin).1 hlt
  obtain ⟨hlen, capacity, hcap, hfits⟩ := hplaces.1 e hentry
  obtain ⟨hstart, hsize⟩ := binCapacity_eq_some.1 hcap
  have hmul := Nat.mul_le_mul_right (new layout).binSizeBytes hle
  refine ⟨_, binCapacity_eq_some.2 ⟨hmul.trans_lt hstart, rfl⟩, ?_⟩
  omega

theorem liveIn_append (a b : List StorageBinObjectLocation) (binId : ℕ) :
    liveIn (a ++ b) binId = liveIn a binId ++ liveIn b binId := by
  simp only [liveIn, filter_append, map_append]

/-- A lost bin is occupied as a whole. -/
theorem points_lostBins {binId : ℕ} (hlt : binId < map.nextBinId)
    (hunlisted : ∀ e ∈ entries, e.location.binId ≠ binId) :
    points (liveIn ((lostBins layout entries map).map (·.location)) binId) =
      Finset.range (((new layout).binCapacity binId).getD 0) := by
  ext x
  rw [mem_points, Finset.mem_range]
  constructor
  · rintro ⟨range, hrange, hx⟩
    obtain ⟨loc, hloc, rfl⟩ := mem_map.1 hrange
    obtain ⟨hloc, hbin⟩ := mem_filter.1 hloc
    obtain ⟨lost, hlost, rfl⟩ := mem_map.1 hloc
    obtain ⟨other, -, -, rfl⟩ := mem_lostBins.1 hlost
    obtain rfl : other = binId := of_decide_eq_true hbin
    have hstop := (Span.mem_points.1 hx).2
    rwa [Span.stop, wholeBin, StorageBinObjectLocation.range, zero_add] at hstop
  · intro hx
    refine ⟨(wholeBin layout binId).location.range, ?_, ?_⟩
    · refine mem_map_of_mem (mem_filter.2 ⟨?_, decide_eq_true rfl⟩)
      exact mem_map_of_mem (mem_lostBins.2 ⟨binId, hlt, hunlisted, rfl⟩)
    · refine Span.mem_points.2 ⟨Nat.zero_le x, ?_⟩
      rwa [Span.stop, wholeBin, StorageBinObjectLocation.range, zero_add]

theorem Rebuilt.admissible_lostBins (h : Rebuilt layout entries map)
    (hfits : Admissible layout entries) :
    Admissible layout (entries ++ lostBins layout entries map) := by
  refine ⟨fun e hentry => ?_, ?_⟩
  · rcases mem_append.1 hentry with hentry | hlost
    · exact hfits.1 e hentry
    · obtain ⟨bin, hlt, -, rfl⟩ := mem_lostBins.1 hlost
      obtain ⟨capacity, hcap, hpos⟩ := h.capacity_pos hfits hlt
      have hlen : (wholeBin layout bin).location.len = capacity := by
        rw [wholeBin, hcap, Option.getD_some]
      refine ⟨hlen ▸ hpos, capacity, hcap, ?_⟩
      rw [hlen]
      exact (zero_add capacity).le
  · rw [map_append, pairwise_append]
    refine ⟨hfits.2, ?_, ?_⟩
    · rw [lostBins, map_map, pairwise_map]
      refine (nodup_range.filter _).imp fun hne heq => absurd heq hne
    · intro loc hloc other hother heq
      obtain ⟨e, hentry, rfl⟩ := mem_map.1 hloc
      obtain ⟨lost, hlost, rfl⟩ := mem_map.1 hother
      obtain ⟨bin, -, hunlisted, rfl⟩ := mem_lostBins.1 hlost
      exact absurd heq (hunlisted e hentry)

/-- The map is also that of the index with the lost bins in it. -/
theorem Rebuilt.with_lostBins (h : Rebuilt layout entries map) :
    Rebuilt layout (entries ++ lostBins layout entries map) map := by
  have hlist : ∀ binId, (∃ e ∈ entries, e.location.binId = binId) →
      liveIn ((lostBins layout entries map).map (·.location)) binId = [] := by
    rintro binId ⟨e, hentry, rfl⟩
    refine liveIn_eq_nil.2 ?_
    rintro ⟨lost, hlost, heq⟩
    obtain ⟨other, -, hunlisted, rfl⟩ := mem_lostBins.1 hlost
    exact hunlisted e hentry heq.symm
  refine ⟨h.binCapacity, fun binId => ?_, fun binId hunlisted => ?_, fun binId hin => ?_⟩
  · rw [h.nextBinId]
    constructor
    · rintro ⟨e, hentry, hle⟩
      exact ⟨e, mem_append_left _ hentry, hle⟩
    · rintro ⟨e, hentry, hle⟩
      rcases mem_append.1 hentry with hentry | hlost
      · exact ⟨e, hentry, hle⟩
      · obtain ⟨other, hlt, -, rfl⟩ := mem_lostBins.1 hlost
        exact (h.nextBinId binId).1 (lt_of_le_of_lt hle hlt)
  · refine h.unlisted binId fun ⟨e, hentry, heq⟩ => hunlisted ?_
    exact ⟨e, mem_append_left _ hentry, heq⟩
  · rw [map_append, liveIn_append]
    by_cases hold : ∃ e ∈ entries, e.location.binId = binId
    · rw [hlist binId hold, append_nil]
      exact h.listed binId hold
    · obtain ⟨lost, hlost, heq⟩ := hin
      have hnew := (mem_append.1 hlost).resolve_left fun hentry => hold ⟨lost, hentry, heq⟩
      obtain ⟨other, hlt, hunlisted, rfl⟩ := mem_lostBins.1 hnew
      obtain rfl : other = binId := heq
      rw [liveIn_eq_nil.2 hold, nil_append, h.unlisted other hold, points_lostBins hlt hunlisted,
        h.binCapacity, sdiff_self]
      exact ⟨canonical_nil, rfl⟩

/-- **After a restart the free ranges, the places of the index and the lost bins divide the
bins.** -/
theorem Rebuilt.divides_lost (h : Rebuilt layout entries map) (hfits : Admissible layout entries) :
    map.Divides (entries.map (·.location) ++ (lostBins layout entries map).map (·.location)) := by
  rw [← map_append]
  refine (h.with_lostBins.divides_iff (h.admissible_lostBins hfits)).2 ?_
  intro e hentry bin hlt
  have hnext : bin < map.nextBinId := by
    rcases mem_append.1 hentry with hentry | hlost
    · exact (h.nextBinId bin).2 ⟨e, hentry, hlt.le⟩
    · obtain ⟨other, hother, -, rfl⟩ := mem_lostBins.1 hlost
      exact hlt.trans hother
  by_cases hold : ∃ e ∈ entries, e.location.binId = bin
  · obtain ⟨other, hother, heq⟩ := hold
    exact ⟨other, mem_append_left _ hother, heq⟩
  · refine ⟨wholeBin layout bin, mem_append_right _ (mem_lostBins.2 ⟨bin, hnext, ?_, rfl⟩), rfl⟩
    exact fun other hother heq => hold ⟨other, hother, heq⟩

/-- How a map starts: empty, or rebuilt from an index. -/
inductive Starts (layout : StorageBinLayoutPlan) : StorageBinState → Prop
  | new : Starts layout ⟨new layout, []⟩
  | fromOccupied {entries : List StorageBinIndexEntry} {map : StorageBinFreeMap} :
    fromOccupied layout entries = .ok map → Starts layout ⟨map, entries.map (·.location)⟩

/-- The maps of all runs. -/
def Reachable (map : StorageBinFreeMap) : Prop :=
  ∃ layout start, ∃ events : List StorageBinEvent,
    Starts layout start ∧ (events.foldl StorageBinState.step start).map = map

theorem Reachable.divides (h : map.Reachable) : ∃ live, map.Divides live := by
  obtain ⟨layout, start, events, hstart, rfl⟩ := h
  have hdiv : ∃ lost, start.map.Divides (start.live ++ lost) := by
    cases hstart with
    | new => exact ⟨[], divides_new layout⟩
    | fromOccupied hmap =>
      have hfits := fromOccupied_ok hmap
      obtain ⟨map, heq, hbuilt⟩ := fromOccupied_eq hfits
      obtain rfl := Except.ok.inj (hmap.symm.trans heq)
      exact ⟨_, hbuilt.divides_lost hfits⟩
  obtain ⟨lost, hlost⟩ := hdiv
  exact ⟨_, StorageBinState.divides_run hlost events⟩

/-- **An allocation fails exactly when the length is above the size of a bin, or when no free range
is long enough and the next bin is not there or too short; the map then stays as it is.  Otherwise
it gives the front of the first range that is long enough, by bin and offset, and where there is
none the start of the next bin.** -/
theorem allocate_first_fit (h : map.Reachable) {len : ℕ} (hlen : 0 < len) :
    ((map.allocate len).1 = .ok none ↔ map.binSizeBytes < len ∨
      (∀ binId range, ¬ map.Offers len binId range) ∧ ¬ map.NextBinHolds len) ∧
    ((map.allocate len).1 = .ok none → (map.allocate len).2 = map) ∧
    ((map.allocate len).1 ≠ .ok none →
      (∃ binId range, map.FirstFit len binId range ∧
        (map.allocate len).1 = .ok (some ⟨binId, range.offset, len⟩)) ∨
      (∀ binId range, ¬ map.Offers len binId range) ∧ map.NextBinHolds len ∧
        (map.allocate len).1 = .ok (some ⟨map.nextBinId, 0, len⟩)) := by
  obtain ⟨live, hdiv⟩ := h.divides
  obtain ⟨heq, hwhy⟩ | ⟨hsize, ⟨binId, range, hfirst, next, heq, -⟩ |
      ⟨hnone, hhold, next, heq, -⟩⟩ :=
    hdiv.allocate_cases hlen
  · simp [heq, hwhy]
  · have hoff := hfirst.1
    refine ⟨⟨fun hfail => by simp [heq] at hfail, ?_⟩, fun hfail => by simp [heq] at hfail,
      fun _ => Or.inl ⟨binId, range, hfirst, by rw [heq]⟩⟩
    rintro (hlong | ⟨hnone, -⟩)
    · exact absurd hlong hsize
    · exact absurd hoff (hnone binId range)
  · refine ⟨⟨fun hfail => by simp [heq] at hfail, ?_⟩, fun hfail => by simp [heq] at hfail,
      fun _ => Or.inr ⟨hnone, hhold, by rw [heq]⟩⟩
    rintro (hlong | ⟨-, hshort⟩)
    · exact absurd hlong hsize
    · exact absurd hhold hshort

/-- After a run that opened both bins and gave space back, nine bytes are nowhere free in one piece,
and three bytes are taken from the space that was given back. -/
theorem allocate_first_fit_shortRun :
    let map := (StorageBinState.shortRun.foldl StorageBinState.step
      ⟨new StorageBinState.shortLayout, []⟩).map
    map.Reachable ∧
      ((map.allocate 9).1 = .ok none ∧ (map.allocate 9).2 = map ∧
        (∀ binId range, ¬ map.Offers 9 binId range) ∧ ¬ map.NextBinHolds 9) ∧
      (map.allocate 3).1 = .ok (some ⟨0, 2, 3⟩) ∧
        ∃ range, map.FirstFit 3 0 range ∧ range.offset = 2 := by
  intro map
  have hrun : map.Reachable := ⟨_, _, StorageBinState.shortRun, .new, rfl⟩
  have hnine : (map.allocate 9).1 = .ok none := by decide +kernel
  have hthree : (map.allocate 3).1 = .ok (some ⟨0, 2, 3⟩) := by decide +kernel
  obtain ⟨hwhy, hsame, -⟩ := allocate_first_fit hrun (show 0 < 9 by decide)
  obtain ⟨-, -, hfits⟩ := allocate_first_fit hrun (show 0 < 3 by decide)
  refine ⟨hrun, ⟨hnine, hsame hnine, (hwhy.1 hnine).resolve_left (by decide +kernel)⟩, hthree, ?_⟩
  rw [hthree] at hfits
  obtain ⟨binId, range, hfirst, heq⟩ | ⟨-, -, heq⟩ := hfits (by simp)
  · obtain ⟨rfl, hoffset⟩ : 0 = binId ∧ 2 = range.offset := by simpa using heq
    exact ⟨range, hfirst, hoffset.symm⟩
  · exact absurd heq (by decide +kernel)

end StorageBinFreeMap

namespace StorageBinTier

variable {cache : NativeDiskCache} {t : StorageBinTier} {key : Text}

theorem release_state (t : StorageBinTier) (loc : StorageBinObjectLocation) :
    (t.releaseStorageBinLocation loc).state = t.state := by
  rw [releaseStorageBinLocation]
  split <;> rfl

theorem removeCombined_of_none (hnone : t.state.objects.lookup key = none) :
    t.removeCombined key =
      (false, { t with state := (t.state.removeCombined key).2 }) := by
  rw [removeCombined, NativeDiskCacheState.removeCombined_of_none hnone]

theorem removeCombined_of_some {r : NativeDiskCacheRecord StorageBinObjectLocation}
    (hrec : t.state.objects.lookup key = some r) :
    t.removeCombined key = (true, releaseStorageBinLocation
      { t with state := (t.state.removeCombined key).2 } r.location) := by
  rw [removeCombined, NativeDiskCacheState.removeCombined_of_some hrec]

theorem removeCombined_objects (t : StorageBinTier) (key : Text) (k : Text) :
    (t.removeCombined key).2.state.objects.lookup k =
      (t.state.objects.erase key).lookup k := by
  cases hrec : t.state.objects.lookup key with
  | none =>
    rw [removeCombined_of_none hrec, NativeDiskCacheState.removeCombined_of_none hrec]
    by_cases hk : k = key
    · subst hk
      rw [lookup_erase]
      exact hrec
    · rw [lookup_erase_ne hk]
  | some r =>
    rw [removeCombined_of_some hrec, release_state,
      NativeDiskCacheState.removeCombined_of_some hrec]

/-- An eviction that succeeds takes one object away. -/
theorem attempts_of_evictOldest {next : StorageBinTier} (h : t.evictOldest = (true, next)) :
    next.attempts + 1 = t.attempts := by
  rw [evictOldest] at h
  split at h
  · cases h
  · rename_i oldest _
    cases hrec : t.state.objects.lookup oldest with
    | none =>
      rw [removeCombined_of_none hrec] at h
      cases h
    | some r =>
      rw [removeCombined_of_some hrec] at h
      cases h
      rw [attempts, attempts, release_state, NativeDiskCacheState.removeCombined_of_some hrec,
        (perm_cons_erase hrec).length_eq, length_cons]

section Loop

variable {α : Type} {attempt : StorageBinTier → Except IoError (Option α) × StorageBinTier}

theorem evictUntil_succ (n : ℕ) (t : StorageBinTier) :
    evictUntil attempt (n + 1) t =
      match attempt t with
      | (.ok none, t) =>
        match t.evictOldest with
        | (false, t) => (.ok none, t)
        | (true, t) => evictUntil attempt n t
      | done => done := rfl

/-- More turns than `attempts` make no difference. -/
theorem evictUntil_of_le (hstate : ∀ t, (attempt t).2.state = t.state) {n : ℕ}
    (h : t.attempts ≤ n) : evictUntil attempt n t = evictUntil attempt t.attempts t := by
  induction n generalizing t with
  | zero => exact absurd h (by rw [attempts]; omega)
  | succ n ih =>
    obtain ⟨m, hm⟩ : ∃ m, t.attempts = m + 1 := ⟨t.state.objects.entries.length, rfl⟩
    rw [hm, evictUntil_succ, evictUntil_succ]
    match hattempt : attempt t with
    | (.error e, next) => rfl
    | (.ok (some a), next) => rfl
    | (.ok none, next) =>
      have hsame : next.attempts = t.attempts := by
        have := hstate t
        rw [hattempt] at this
        rw [attempts, attempts, this]
      match hevict : next.evictOldest with
      | (false, last) => simp only [hevict]
      | (true, last) =>
        have hless := attempts_of_evictOldest hevict
        simp only [hevict]
        rw [ih (by omega), show m = last.attempts by omega]

/-- A loop ends with an attempt, or with nothing; what evictions and fruitless attempts keep
holds before the last step. -/
theorem evictUntil_cases {P : StorageBinTier → Prop}
    (hattempt : ∀ t next, P t → attempt t = (.ok none, next) → P next)
    (hevict : ∀ t, P t → P t.evictOldest.2) (h : P t) (n : ℕ) :
    (∃ last, P last ∧ evictUntil attempt n t = (.ok none, last)) ∨
      ∃ last, P last ∧ evictUntil attempt n t = attempt last := by
  induction n generalizing t with
  | zero => exact Or.inl ⟨t, h, rfl⟩
  | succ n ih =>
    rw [evictUntil_succ]
    match hres : attempt t with
    | (.error e, next) => exact Or.inr ⟨t, h, hres.symm⟩
    | (.ok (some a), next) => exact Or.inr ⟨t, h, hres.symm⟩
    | (.ok none, next) =>
      have hnext := hevict next (hattempt t next h hres)
      match hstep : next.evictOldest with
      | (false, last) =>
        rw [hstep] at hnext
        simp only [hstep]
        exact Or.inl ⟨last, hnext, rfl⟩
      | (true, last) =>
        rw [hstep] at hnext
        simp only [hstep]
        exact ih hnext

end Loop

/-- The places that the tables know of. -/
def locations (t : StorageBinTier) : List StorageBinObjectLocation :=
  t.state.objects.entries.map (·.2.location)

/-- The tables agree, and the places of the objects are handed out. -/
structure Accounted (cache : NativeDiskCache) (t : StorageBinTier) : Prop where
  coherent : t.state.Coherent
  sized : ∀ key record, t.state.objects.lookup key = some record →
    record.weight = record.location.len
  capacity : t.freeMap.binCapacity = (StorageBinFreeMap.new cache.layout).binCapacity
  divides : ∃ lost, t.freeMap.Divides (t.locations ++ lost)

theorem weights_eq (h : ∀ key r, t.state.objects.lookup key = some r →
    r.weight = r.location.len) :
    t.state.weights = (t.locations.map (·.len)).sum := by
  rw [weights, weightSum, locations, map_map]
  congr 1
  refine map_congr_left fun e he => ?_
  exact h e.1 e.2 (mem_lookup_iff.2 he)

/-- **The bytes in use are within the limit.** -/
theorem Accounted.bytes_le (h : Accounted cache t) : t.state.bytes ≤ cache.maxBytes := by
  obtain ⟨lost, hdiv⟩ := h.divides
  have hsum := hdiv.sum_le h.capacity
  rw [map_append, sum_append] at hsum
  rw [h.coherent.bytes, weights_eq h.sized]
  exact (Nat.le_add_right _ _).trans hsum

variable {loc : StorageBinObjectLocation}

/-- A place that is given back. -/
theorem release_freeMap {live : List StorageBinObjectLocation}
    (h : t.freeMap.Divides (loc :: live)) :
    (t.releaseStorageBinLocation loc).freeMap.Divides live ∧
      (t.releaseStorageBinLocation loc).freeMap.binCapacity = t.freeMap.binCapacity := by
  obtain ⟨map, hmap, hdiv, hcap⟩ := h.release
  rw [releaseStorageBinLocation, hmap]
  exact ⟨hdiv.reclaimLoop rfl [],
    (StorageBinFreeMap.reclaimLoop_binCapacity _ map []).trans hcap⟩

theorem Accounted.removeCombined (h : Accounted cache t) (key : Text) :
    Accounted cache (t.removeCombined key).2 := by
  have hcoh := h.coherent.removeCombined key
  have hsize : ∀ k r, (t.removeCombined key).2.state.objects.lookup k = some r →
      r.weight = r.location.len := by
    intro k r hfound
    rw [removeCombined_objects] at hfound
    by_cases hk : k = key
    · subst hk
      rw [lookup_erase] at hfound
      cases hfound
    · rw [lookup_erase_ne hk] at hfound
      exact h.sized k r hfound
  cases hrec : t.state.objects.lookup key with
  | none =>
    rw [removeCombined_of_none hrec] at hsize ⊢
    refine ⟨hcoh, hsize, h.capacity, ?_⟩
    rw [NativeDiskCacheState.removeCombined_of_none hrec]
    exact h.divides
  | some r =>
    obtain ⟨lost, hdiv⟩ := h.divides
    have hperm : (t.locations ++ lost).Perm (r.location ::
        ((t.state.objects.erase key).entries.map (·.2.location) ++ lost)) :=
      ((perm_cons_erase hrec).map
        fun e : Σ _ : Text, NativeDiskCacheRecord StorageBinObjectLocation =>
          e.2.location).append_right lost
    have hlist : StorageBinFreeMap.Divides t.freeMap (r.location ::
        ((t.state.objects.erase key).entries.map (·.2.location) ++ lost)) :=
      Partitioned.perm hdiv hperm
    obtain ⟨hrel, hcap⟩ := @release_freeMap
      { t with state := (t.state.removeCombined key).2 } _ _ hlist
    rw [removeCombined_of_some hrec] at hsize ⊢
    refine ⟨?_, hsize, hcap.trans h.capacity, lost, ?_⟩
    · rw [release_state]
      exact hcoh
    · rw [locations, release_state, NativeDiskCacheState.removeCombined_of_some hrec]
      rw [NativeDiskCacheState.removeCombined_of_some hrec] at hrel
      exact hrel

theorem Accounted.evictOldest (h : Accounted cache t) : Accounted cache t.evictOldest.2 := by
  rw [StorageBinTier.evictOldest]
  split
  · exact h
  · exact h.removeCombined _

/-- The loops that only test. -/
theorem Accounted.evictUntil_passes (h : Accounted cache t) (test : StorageBinTier → Bool) (n : ℕ) :
    Accounted cache (evictUntil (passes test) n t).2 := by
  have hattempt : ∀ t next, Accounted cache t → passes test t = (.ok none, next) →
      Accounted cache next := fun t next ht hnext => (Prod.mk.inj hnext).2 ▸ ht
  rcases evictUntil_cases hattempt (fun t ht => ht.evictOldest) h n with
    ⟨last, hlast, heq⟩ | ⟨last, hlast, heq⟩
  · rw [heq]
    exact hlast
  · rw [heq]
    exact hlast

theorem Accounted.evictUntilAdmissible (h : Accounted cache t) (key : Text) (weight : ℕ) :
    Accounted cache (t.evictUntilAdmissible cache key weight).2 := by
  rw [StorageBinTier.evictUntilAdmissible]
  split_ifs
  · exact h
  · exact h.evictUntil_passes _ _

/-! ### Stores and lookups -/

/-- The object of a key that is about to be stored is gone, whatever else is evicted for it. -/
theorem evictOldest_lookup (t : StorageBinTier) (hnone : t.state.objects.lookup key = none) :
    t.evictOldest.2.state.objects.lookup key = none := by
  rw [evictOldest]
  split
  · exact hnone
  · rename_i oldest _
    rw [removeCombined_objects]
    by_cases hk : key = oldest
    · subst hk
      exact lookup_erase _ _
    · rw [lookup_erase_ne hk]
      exact hnone

/-- A place is handed out for a key that has no object. -/
structure Allotted (cache : NativeDiskCache) (key : Text) (location : StorageBinObjectLocation)
    (t : StorageBinTier) : Prop where
  coherent : t.state.Coherent
  absent : t.state.objects.lookup key = none
  sized : ∀ key record, t.state.objects.lookup key = some record →
    record.weight = record.location.len
  capacity : t.freeMap.binCapacity = (StorageBinFreeMap.new cache.layout).binCapacity
  divides : ∃ lost, t.freeMap.Divides (location :: (t.locations ++ lost))

theorem Accounted.allocate (h : Accounted cache t) (hnone : t.state.objects.lookup key = none)
    (len : ℕ) :
    (∃ loc next, t.allocateStorageBinLocation len = (.ok (some loc), next) ∧
      loc.len = len ∧ Allotted cache key loc next) ∨
    ∃ res next, t.allocateStorageBinLocation len = (res, next) ∧
      Accounted cache next ∧ ∀ loc, res ≠ .ok (some loc) := by
  let attempt : StorageBinTier →
      Except IoError (Option StorageBinObjectLocation) × StorageBinTier :=
    fun t => ((t.freeMap.allocate len).1, { t with freeMap := (t.freeMap.allocate len).2 })
  have hkeep : ∀ t next : StorageBinTier,
      Accounted cache t ∧ t.state.objects.lookup key = none → attempt t = (.ok none, next) →
      Accounted cache next ∧ next.state.objects.lookup key = none := by
    intro t next ht hattempt
    obtain ⟨lost, hdiv⟩ := ht.1.divides
    rcases hdiv.allocate len with ⟨loc, -, map, heq, -⟩ | ⟨res, heq, -⟩
    · simp [attempt, heq] at hattempt
    · obtain ⟨-, rfl⟩ := Prod.mk.inj hattempt
      simpa [heq] using ht
  have hloop : t.allocateStorageBinLocation len = evictUntil attempt t.attempts t := rfl
  rw [hloop]
  rcases evictUntil_cases hkeep
      (fun t ht => ⟨ht.1.evictOldest, evictOldest_lookup t ht.2⟩) ⟨h, hnone⟩ t.attempts with
    ⟨last, hlast, heq⟩ | ⟨last, hlast, heq⟩
  · exact Or.inr ⟨_, last, heq, hlast.1, fun loc => by rintro ⟨⟩⟩
  · rw [heq]
    obtain ⟨lost, hdiv⟩ := hlast.1.divides
    rcases hdiv.allocate len with ⟨loc, hlen, map, hres, hcap, hnext⟩ |
      ⟨res, hres, hnot⟩
    · exact Or.inl ⟨loc, { last with freeMap := map }, by simp only [attempt, hres], hlen,
        hlast.1.coherent, hlast.2, hlast.1.sized, hcap.trans hlast.1.capacity, lost, hnext⟩
    · exact Or.inr ⟨res, last, by simp only [attempt, hres], hlast.1, hnot⟩

theorem Allotted.insertStored {key : NativeDiskCacheStoreKey}
    (h : Allotted cache key.combined loc t) (now : ℤ) (files : BinFiles) :
    Accounted cache
      { t with state := t.state.insertStored key loc loc.len now, files } := by
  obtain ⟨lost, hdiv⟩ := h.divides
  have hmem : key.combined ∉ t.state.objects := lookup_eq_none.1 h.absent
  -- the new place is apart from those of the objects, so that the sum cannot overflow
  have hsum : t.state.bytes + loc.len ≤ U64_MAX := by
    have hle := hdiv.sum_le h.capacity
    have hmax := cache.layout.maxSizeBytes_le
    rw [map_cons, sum_cons, map_append, sum_append, ← weights_eq h.sized, ← h.coherent.bytes] at hle
    omega
  refine ⟨h.coherent.insertStored h.absent hsum, fun k r hfound => ?_, h.capacity, lost, ?_⟩
  · rw [NativeDiskCacheState.insertStored, insertObject_of_none h.absent] at hfound
    by_cases hk : k = key.combined
    · subst hk
      rw [lookup_insert] at hfound
      cases hfound
      rfl
    · rw [lookup_insert_ne hk] at hfound
      exact h.sized k r hfound
  · show StorageBinFreeMap.Divides t.freeMap
      ((t.state.objects.insert key.combined _).entries.map (·.2.location) ++ lost)
    rw [entries_insert_of_notMem hmem]
    exact hdiv

theorem Accounted.storeEncoded (h : Accounted cache t) (now : Clock) (key : NativeDiskCacheStoreKey)
    (encoded : Bytes) : Accounted cache (t.storeEncoded cache now key encoded).2 := by
  have hfits := h.evictUntilAdmissible key.combined encoded.length
  rw [StorageBinTier.storeEncoded]
  match hres : t.evictUntilAdmissible cache key.combined encoded.length with
  | (.error e, next) =>
    rw [hres] at hfits
    exact hfits
  | (.ok none, next) =>
    rw [hres] at hfits
    exact hfits
  | (.ok (some ()), next) =>
    rw [hres] at hfits
    have habs : (next.removeCombined key.combined).2.state.objects.lookup key.combined = none := by
      rw [removeCombined_objects, lookup_erase]
    rcases (hfits.removeCombined key.combined).allocate habs encoded.length with
      ⟨loc, last, heq, hlen, hallotted⟩ | ⟨res, last, heq, hlast, hnot⟩
    · simp only [heq]
      rw [← hlen]
      exact hallotted.insertStored _ _
    · simp only [heq]
      match res with
      | .error e => exact hlast
      | .ok none => exact hlast
      | .ok (some loc) => exact absurd rfl (hnot loc)

theorem Accounted.storeInner (h : Accounted cache t) (now : Clock) (nonce : Bytes)
    (key : NativeDiskCacheStoreKey) (e : NativeMemoryCacheEntry) :
    Accounted cache (t.storeInner cache now nonce key e).2 := by
  rw [StorageBinTier.storeInner]
  split
  · exact h
  · exact h.storeEncoded now key _

theorem Accounted.touchObject (h : Accounted cache t) (key : Text) (now : ℤ) :
    Accounted cache { t with state := t.state.touchObject key now } := by
  have hcoh := h.coherent.touchObject key now
  rw [NativeDiskCacheState.touchObject] at hcoh ⊢
  cases hrec : t.state.objects.lookup key with
  | none => exact h
  | some r =>
    rw [hrec] at hcoh
    obtain ⟨lost, hdiv⟩ := h.divides
    refine ⟨hcoh, fun k found hfound => ?_, h.capacity, lost, ?_⟩
    · by_cases hk : k = key
      · subst hk
        rw [lookup_insert] at hfound
        cases hfound
        exact h.sized k r hrec
      · rw [lookup_insert_ne hk] at hfound
        exact h.sized k found hfound
    · have hperm := ((perm_cons_erase hrec).map
        fun e : Σ _ : Text, NativeDiskCacheRecord StorageBinObjectLocation =>
          e.2.location).append_right lost
      exact Partitioned.perm hdiv hperm

theorem Accounted.getCombined (h : Accounted cache t) (now : Clock) (key : Text) :
    Accounted cache (t.getCombined cache now key).2 := by
  rw [StorageBinTier.getCombined]
  split
  · exact h
  · split
    · exact h.removeCombined key
    · split_ifs
      · exact h.removeCombined key
      · split
        · exact h.removeCombined key
        · exact h.touchObject key _

theorem Accounted.get (h : Accounted cache t) (now : Clock) (key : Text)
    (requestVariantKey : List Text → Option Text) :
    Accounted cache (t.get cache now key requestVariantKey).2 := by
  rw [StorageBinTier.get]
  split
  · exact h.getCombined now key
  · split
    · exact h
    · exact h.getCombined now _

end StorageBinTier

end Fluxheim.Cache
