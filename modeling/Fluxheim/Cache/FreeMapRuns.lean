import Fluxheim.Lib.Run
import Fluxheim.Lib.Table
import Fluxheim.Cache.StorageBinAlloc

/-!
# The free ranges over a run of allocations

In every bin that is in use the free ranges and the places handed out divide the bin, and there is
nothing in the others.  Four moves keep this: a range is taken or given back, a bin is opened or
closed.
-/

namespace Fluxheim.Cache

open Spans Finset

theorem checkedAdd_eq_some {a b c : ℕ} : checkedAdd a b = some c ↔ a + b ≤ U64_MAX ∧ a + b = c := by
  rw [checkedAdd]
  split_ifs with h <;> simp [h]

theorem saturatingAdd_of_le {a b : ℕ} (h : a + b ≤ U64_MAX) : saturatingAdd a b = a + b :=
  min_eq_left h

theorem mergeRanges_eq_merge {merged ranges : List StorageBinFreeRange}
    (hmerge : ∀ s ∈ merged, s.stop ≤ U64_MAX) (hranges : ∀ s ∈ ranges, s.stop ≤ U64_MAX) :
    mergeRanges merged ranges = merge merged ranges := by
  induction ranges generalizing merged with
  | nil => rw [mergeRanges, merge]
  | cons range ranges ih =>
    rw [List.forall_mem_cons] at hranges
    cases merged with
    | nil =>
      exact ih (by simpa using hranges.1) hranges.2
    | cons last merged =>
      rw [List.forall_mem_cons] at hmerge
      have hlast : saturatingAdd last.offset last.len = last.stop :=
        saturatingAdd_of_le hmerge.1
      have hrange : saturatingAdd range.offset range.len = range.stop :=
        saturatingAdd_of_le hranges.1
      rw [mergeRanges, merge]
      simp only [hlast, hrange]
      split_ifs
      · refine ih (List.forall_mem_cons.2 ⟨?_, hmerge.2⟩) hranges.2
        have h1 := hmerge.1
        have h2 := hranges.1
        simp only [Span.stop] at h1 h2 ⊢
        omega
      · exact ih (List.forall_mem_cons.2 ⟨hranges.1, List.forall_mem_cons.2 hmerge⟩) hranges.2

namespace StorageBinFreeMap

variable {map : StorageBinFreeMap} {binId capacity : ℕ}

theorem binCapacity_eq_some : map.binCapacity binId = some capacity ↔
    binId * map.binSizeBytes < map.maxSizeBytes ∧
      capacity = min map.binSizeBytes (map.maxSizeBytes - binId * map.binSizeBytes) := by
  have hmax := map.maxSizeBytes_le
  rw [binCapacity, checkedMul]
  split_ifs with h
  · simp only
    split_ifs with hstart
    · simp only [false_iff]
      omega
    · simp only [Option.some.injEq]
      omega
  · simp only [false_iff]
    omega

theorem capacity_le (h : map.binCapacity binId = some capacity) : capacity ≤ U64_MAX := by
  have hmax := map.maxSizeBytes_le
  have := (binCapacity_eq_some.1 h).2
  omega

theorem capacity_le_binSize (h : map.binCapacity binId = some capacity) :
    capacity ≤ map.binSizeBytes := by
  have := (binCapacity_eq_some.1 h).2
  omega

theorem succ_le_of_capacity (h : map.binCapacity binId = some capacity) (hpos : 0 < capacity) :
    binId + 1 ≤ U64_MAX := by
  obtain ⟨hstart, hcap⟩ := binCapacity_eq_some.1 h
  have hsize : 0 < map.binSizeBytes := by omega
  have hmax := map.maxSizeBytes_le
  have := Nat.le_mul_of_pos_right binId hsize
  omega

variable (ranges : List StorageBinFreeRange)

theorem freeRanges_insert :
    freeRanges { map with free := map.free.insert binId ranges } =
      Function.update map.freeRanges binId ranges := by
  funext bin
  by_cases h : bin = binId
  · subst h
    simp [freeRanges]
  · simp [freeRanges, h]

theorem freeRanges_erase :
    freeRanges { map with free := map.free.erase binId } =
      Function.update map.freeRanges binId [] := by
  funext bin
  by_cases h : bin = binId
  · subst h
    simp [freeRanges]
  · simp [freeRanges, h]

/-- A bin without free ranges is not in the map. -/
theorem freeRanges_replace :
    freeRanges { map with
      free := if ranges = [] then map.free.erase binId else map.free.insert binId ranges } =
      Function.update map.freeRanges binId ranges := by
  split_ifs with h
  · rw [freeRanges_erase, h]
  · exact freeRanges_insert ranges

variable {range : StorageBinFreeRange}

/-- A range within its bin is put in. -/
theorem insertFreeRange_eq (hcap : map.binCapacity binId = some capacity) (hlen : 0 < range.len)
    (hstop : range.stop ≤ capacity) (hfree : ∀ s ∈ map.freeRanges binId, s.stop ≤ capacity) :
    map.insertFreeRange binId range = .ok
      { map with free := map.free.insert binId (Spans.insert range (map.freeRanges binId)) } := by
  have hmax := capacity_le hcap
  have hadd : checkedAdd range.offset range.len = some range.stop :=
    checkedAdd_eq_some.2 ⟨hstop.trans hmax, rfl⟩
  have hmerge : mergeRanges [] ((map.freeRanges binId ++ [range]).insertionSort offsetLe) =
      Spans.insert range (map.freeRanges binId) := by
    refine mergeRanges_eq_merge (by simp) fun s hs => ?_
    rw [List.mem_insertionSort, List.mem_append, List.mem_singleton] at hs
    rcases hs with hs | rfl
    · exact (hfree s hs).trans hmax
    · exact hstop.trans hmax
  rw [insertFreeRange, if_neg hlen.ne', hcap]
  simp only [hadd, if_neg (not_lt.2 hstop), hmerge]

/-- A free range that is long enough. -/
def Offers (map : StorageBinFreeMap) (len binId : ℕ) (range : StorageBinFreeRange) : Prop :=
  range ∈ map.freeRanges binId ∧ len ≤ range.len

theorem mem_entries_of_offers {len : ℕ}
    (h : map.Offers len binId range) : ⟨binId, map.freeRanges binId⟩ ∈ map.free.entries := by
  cases hlookup : map.free.lookup binId with
  | none => simp [Offers, freeRanges, hlookup] at h
  | some rs =>
    rw [freeRanges, hlookup]
    exact AList.mem_lookup_iff.1 hlookup

theorem findIdx?_eq_none_iff_offers {len : ℕ} :
    (map.freeRanges binId).findIdx? (len ≤ ·.len) = none ↔
      ∀ range, ¬ map.Offers len binId range := by
  simp [Offers, List.findIdx?_eq_none_iff]

/-- The search finds the first range that is long enough, in the bin with the lowest number. -/
theorem selectRange_cases (map : StorageBinFreeMap) (len : ℕ) :
    (map.selectRange len = none ∧ ∀ binId range, ¬ map.Offers len binId range) ∨
    ∃ binId idx, map.selectRange len = some (binId, idx) ∧
      map.free.lookup binId = some (map.freeRanges binId) ∧
      (map.freeRanges binId).findIdx? (len ≤ ·.len) = some idx ∧
      ∀ bin < binId, ∀ range, ¬ map.Offers len bin range := by
  have hperm := map.free.entries.perm_insertionSort fun a b => a.1 ≤ b.1
  have hranges : ∀ e ∈ map.free.entries, map.free.lookup e.1 = some e.2 ∧
      map.freeRanges e.1 = e.2 :=
    fun e he => by
      have hlookup : map.free.lookup e.1 = some e.2 := AList.mem_lookup_iff.2 he
      simp [freeRanges, hlookup]
  cases hsel : map.selectRange len with
  | none =>
    refine Or.inl ⟨rfl, fun binId range hoff => ?_⟩
    have hmem := mem_entries_of_offers hoff
    have hnone := List.findSome?_eq_none_iff.1 hsel _ (hperm.mem_iff.2 hmem)
    exact findIdx?_eq_none_iff_offers.1 (Option.map_eq_none_iff.1 hnone) range hoff
  | some selected =>
    obtain ⟨before, e, after, hsplit, hfound, hpre⟩ := List.findSome?_eq_some_iff.1 hsel
    obtain ⟨idx, hindex, rfl⟩ := Option.map_eq_some_iff.1 hfound
    have he := hranges e (hperm.mem_iff.1 (hsplit ▸ by simp))
    refine Or.inr ⟨e.1, idx, rfl, by rw [he.1, he.2], he.2.symm ▸ hindex,
      fun bin hlt range hoff => ?_⟩
    -- a bin with a lower number stands before the one that is found
    have hmem := hperm.mem_iff.2 (mem_entries_of_offers hoff)
    have hsorted := map.free.entries.pairwise_insertionSort fun a b => a.1 ≤ b.1
    rw [hsplit] at hmem hsorted
    rcases List.mem_append.1 hmem with hmem | hmem
    · exact findIdx?_eq_none_iff_offers.1 (Option.map_eq_none_iff.1 (hpre _ hmem)) range hoff
    · have hle := (List.pairwise_cons.1 (List.pairwise_append.1 hsorted).2.1).1
      rcases List.mem_cons.1 hmem with rfl | hmem
      · exact lt_irrefl _ hlt
      · exact not_lt.2 (hle _ hmem) hlt

/-- An allocation from the free ranges: there is none that is long enough, or the front of the
first one is taken. -/
theorem allocateFromFreeRanges_cases (map : StorageBinFreeMap) (len : ℕ)
    (hfree : ∀ bin, ∀ s ∈ map.freeRanges bin, s.stop ≤ U64_MAX) :
    (map.allocateFromFreeRanges len = (.ok none, map) ∧
      ∀ binId range, ¬ map.Offers len binId range) ∨
    ∃ binId before range after next,
      map.freeRanges binId = before ++ range :: after ∧ len ≤ range.len ∧
      (∀ s ∈ before, s.len < len) ∧ (∀ bin < binId, ∀ s, ¬ map.Offers len bin s) ∧
      map.allocateFromFreeRanges len = (.ok (some ⟨binId, range.offset, len⟩), next) ∧
      next.binSizeBytes = map.binSizeBytes ∧ next.maxSizeBytes = map.maxSizeBytes ∧
      next.nextBinId = map.nextBinId ∧
      next.freeRanges =
        Function.update map.freeRanges binId (takeFront before range after len) := by
  rw [allocateFromFreeRanges]
  obtain ⟨hsel, hnone⟩ | ⟨binId, idx, hsel, hlookup, hindex, hlow⟩ := map.selectRange_cases len
  · rw [hsel]
    exact Or.inl ⟨rfl, hnone⟩
  · right
    generalize hranges : map.freeRanges binId = ranges at hlookup hindex
    obtain ⟨hlt, hlen, hshort⟩ := List.findIdx?_eq_some_iff_getElem.1 hindex
    rw [decide_eq_true_eq] at hlen
    have hsplit : ranges = ranges.take idx ++ ranges[idx] :: ranges.drop (idx + 1) := by
      rw [← List.drop_eq_getElem_cons hlt, List.take_append_drop]
    have hadd : saturatingAdd ranges[idx].offset len = ranges[idx].offset + len := by
      have hstop := hfree binId ranges[idx] (by rw [hranges]; exact List.getElem_mem hlt)
      exact saturatingAdd_of_le ((Nat.add_le_add_left hlen _).trans hstop)
    simp only [hsel, hlookup, List.getElem?_eq_getElem hlt, hadd]
    refine ⟨binId, ranges.take idx, ranges[idx], ranges.drop (idx + 1), _,
      hranges.trans hsplit, hlen, fun s hs => ?_, hlow, rfl, rfl, rfl, rfl, ?_⟩
    · obtain ⟨i, hi, rfl⟩ := List.mem_take_iff_getElem.1 hs
      simpa using hshort i (by omega)
    · have hafter : (if ranges[idx].len = len then ranges.eraseIdx idx
          else ranges.set idx ⟨ranges[idx].offset + len, ranges[idx].len - len⟩) =
          takeFront (ranges.take idx) ranges[idx] (ranges.drop (idx + 1)) len := by
        rw [List.eraseIdx_eq_take_drop_succ, List.set_eq_take_append_cons_drop, if_pos hlt,
          takeFront]
      rw [hafter]
      exact freeRanges_replace _

end StorageBinFreeMap

/-! ### Bins as sets of numbers -/

/-- The places that are handed out in a bin. -/
def liveIn (live : List StorageBinObjectLocation) (binId : ℕ) : List Span :=
  (live.filter (·.binId = binId)).map (·.range)

/-- The numbers of a bin, if it is in use. -/
def binPoints (capacity : ℕ → Option ℕ) (next binId : ℕ) : Finset ℕ :=
  if binId < next then Finset.range ((capacity binId).getD 0) else ∅

theorem points_liveIn_cons (location : StorageBinObjectLocation)
    (live : List StorageBinObjectLocation) (binId : ℕ) :
    points (liveIn (location :: live) binId) =
      (if location.binId = binId then location.range.points else ∅) ∪
        points (liveIn live binId) := by
  by_cases h : location.binId = binId
  · simp [liveIn, h]
  · simp [liveIn, h]

theorem points_liveIn_perm {live other : List StorageBinObjectLocation} (h : live.Perm other)
    (binId : ℕ) : points (liveIn live binId) = points (liveIn other binId) :=
  points_perm ((h.filter _).map _)

theorem points_subset_liveIn {live : List StorageBinObjectLocation}
    {location : StorageBinObjectLocation} (h : location ∈ live) :
    location.range.points ⊆ points (liveIn live location.binId) := by
  intro x hx
  exact mem_points.2 ⟨_, List.mem_map_of_mem (List.mem_filter.2 ⟨h, by simp⟩), hx⟩

/-- Two places have no byte in common. -/
def Apart (a b : StorageBinObjectLocation) : Prop :=
  a.binId = b.binId → Disjoint a.range.points b.range.points

theorem Apart.symm {a b : StorageBinObjectLocation} (h : Apart a b) : Apart b a :=
  fun heq => (h heq.symm).symm

/-- What is free and what is handed out divide the bins in use. -/
structure Partitioned (capacity : ℕ → Option ℕ) (next : ℕ) (free : ℕ → List Span)
    (live : List StorageBinObjectLocation) : Prop where
  opened : ∀ binId < next, (capacity binId).isSome
  canonical : ∀ binId, Canonical (free binId)
  pos : ∀ location ∈ live, 0 < location.len
  apart : live.Pairwise Apart
  disjoint : ∀ binId, Disjoint (points (free binId)) (points (liveIn live binId))
  union : ∀ binId, points (free binId) ∪ points (liveIn live binId) = binPoints capacity next binId

namespace Partitioned

variable {capacity : ℕ → Option ℕ} {next : ℕ} {free : ℕ → List Span}
  {live : List StorageBinObjectLocation} {location : StorageBinObjectLocation}

variable {binId size : ℕ}

theorem mem_binPoints {x : ℕ} : x ∈ binPoints capacity next binId ↔
    binId < next ∧ x < (capacity binId).getD 0 := by
  rw [binPoints]
  split_ifs with h <;> simp [h]

theorem stop_le (h : Partitioned capacity next free live) {s : Span}
    (hs : s ∈ free binId) : s.stop ≤ (capacity binId).getD 0 := by
  refine stop_le_of_points_subset (h.canonical binId).pos (fun x hx => ?_) hs
  have hx' := (h.union binId).le (mem_union_left _ hx)
  exact mem_range.2 (mem_binPoints.1 hx').2

/-- A place that is handed out is in a bin in use, and within it. -/
theorem inside (h : Partitioned capacity next free live) (hloc : location ∈ live) :
    location.binId < next ∧ ∃ size, capacity location.binId = some size ∧
      location.offset + location.len ≤ size := by
  have hlen := h.pos location hloc
  have hsub : location.range.points ⊆ binPoints capacity next location.binId :=
    fun x hx => (h.union _).le (mem_union_right _ (points_subset_liveIn hloc hx))
  have hlast : location.offset + location.len - 1 ∈ location.range.points := by
    rw [Span.mem_points, Span.stop, StorageBinObjectLocation.range]
    dsimp only
    omega
  obtain ⟨hnext, hlt⟩ := mem_binPoints.1 (hsub hlast)
  obtain ⟨size, hsize⟩ := Option.isSome_iff_exists.1 (h.opened _ hnext)
  rw [hsize, Option.getD_some] at hlt
  exact ⟨hnext, size, hsize, by omega⟩

/-- A bin that is not in use is empty. -/
theorem points_of_le (h : Partitioned capacity next free live) (hle : next ≤ binId) :
    points (free binId) = ∅ ∧ points (liveIn live binId) = ∅ := by
  have hunion := h.union binId
  rw [binPoints, if_neg (not_lt.2 hle)] at hunion
  exact union_eq_empty.1 hunion

theorem empty (capacity : ℕ → Option ℕ) : Partitioned capacity 0 (fun _ => []) [] :=
  ⟨by simp, fun _ => canonical_nil, by simp, List.Pairwise.nil, by simp,
    fun _ => by simp [liveIn, binPoints]⟩

/-- One bin is divided anew, and nothing happens in the others. -/
theorem update (h : Partitioned capacity next free live) {next' changed : ℕ}
    {live' : List StorageBinObjectLocation} {rs : List Span}
    (hopen : ∀ binId < next', (capacity binId).isSome) (hpos : ∀ location ∈ live', 0 < location.len)
    (hapart : live'.Pairwise Apart) (hranges : Canonical rs)
    (hdisj : Disjoint (points rs) (points (liveIn live' changed)))
    (hunion : points rs ∪ points (liveIn live' changed) = binPoints capacity next' changed)
    (hother : ∀ binId ≠ changed, points (liveIn live' binId) = points (liveIn live binId) ∧
      binPoints capacity next' binId = binPoints capacity next binId) :
    Partitioned capacity next' (Function.update free changed rs) live' := by
  have hbin : ∀ binId, Canonical (Function.update free changed rs binId) ∧
      Disjoint (points (Function.update free changed rs binId)) (points (liveIn live' binId)) ∧
      points (Function.update free changed rs binId) ∪ points (liveIn live' binId) =
        binPoints capacity next' binId := by
    intro binId
    by_cases heq : binId = changed
    · subst heq
      rw [Function.update_self]
      exact ⟨hranges, hdisj, hunion⟩
    · rw [Function.update_of_ne heq, (hother binId heq).1, (hother binId heq).2]
      exact ⟨h.canonical binId, h.disjoint binId, h.union binId⟩
  exact ⟨hopen, fun binId => (hbin binId).1, hpos, hapart, fun binId => (hbin binId).2.1,
    fun binId => (hbin binId).2.2⟩

theorem points_liveIn_cons_ne (hne : binId ≠ location.binId) :
    points (liveIn (location :: live) binId) = points (liveIn live binId) := by
  rw [points_liveIn_cons, if_neg (Ne.symm hne), empty_union]

theorem points_liveIn_cons_self : points (liveIn (location :: live) location.binId) =
    location.range.points ∪ points (liveIn live location.binId) := by
  rw [points_liveIn_cons, if_pos rfl]

/-- Free bytes are handed out. -/
theorem take (h : Partitioned capacity next free live) (location : StorageBinObjectLocation)
    {rs : List Span} (hranges : Canonical rs) (hlen : 0 < location.len)
    (hdisj : Disjoint location.range.points (points rs))
    (hpoints : points (free location.binId) = points rs ∪ location.range.points) :
    Partitioned capacity next (Function.update free location.binId rs) (location :: live) := by
  have hlive := h.disjoint location.binId
  rw [hpoints, disjoint_union_left] at hlive
  refine h.update h.opened (List.forall_mem_cons.2 ⟨hlen, h.pos⟩)
    (List.pairwise_cons.2 ⟨fun other hother heq => ?_, h.apart⟩) hranges ?_ ?_
    fun binId hne => ⟨points_liveIn_cons_ne hne, rfl⟩
  · exact hlive.2.mono_right (heq ▸ points_subset_liveIn hother)
  · rw [points_liveIn_cons_self, disjoint_union_right]
    exact ⟨hdisj.symm, hlive.1⟩
  · rw [points_liveIn_cons_self, ← h.union, hpoints, union_assoc]

/-- A place is given back. -/
theorem give {rest : List StorageBinObjectLocation}
    (h : Partitioned capacity next free (location :: rest)) :
    Partitioned capacity next
      (Function.update free location.binId (Spans.insert location.range (free location.binId)))
      rest := by
  obtain ⟨hapart, hrest⟩ := List.pairwise_cons.1 h.apart
  obtain ⟨hlen, hpos⟩ := List.forall_mem_cons.1 h.pos
  have hlive : Disjoint location.range.points (points (liveIn rest location.binId)) := by
    refine disjoint_left.2 fun x hx hother => ?_
    obtain ⟨range, hrange, hxra⟩ := mem_points.1 hother
    obtain ⟨other, hmem, rfl⟩ := List.mem_map.1 hrange
    obtain ⟨hmem, hbin⟩ := List.mem_filter.1 hmem
    exact disjoint_left.1 (hapart other hmem (of_decide_eq_true hbin).symm) hx hxra
  have hdisj := h.disjoint location.binId
  rw [points_liveIn_cons_self, disjoint_union_right] at hdisj
  refine h.update h.opened hpos hrest (canonical_insert hlen (h.canonical _).pos) ?_ ?_
    fun binId hne => ⟨(points_liveIn_cons_ne hne).symm, rfl⟩
  · rw [points_insert, disjoint_union_left]
    exact ⟨hdisj.2, hlive⟩
  · rw [points_insert, ← h.union, points_liveIn_cons_self, union_assoc]

/-- The order of the places does not matter. -/
theorem perm (h : Partitioned capacity next free live) {other : List StorageBinObjectLocation}
    (hperm : live.Perm other) : Partitioned capacity next free other :=
  ⟨h.opened, h.canonical, fun location hloc => h.pos location (hperm.mem_iff.2 hloc),
    (hperm.pairwise_iff Apart.symm).1 h.apart,
    fun binId => points_liveIn_perm hperm binId ▸ h.disjoint binId,
    fun binId => points_liveIn_perm hperm binId ▸ h.union binId⟩

theorem binPoints_succ_of_ne (hne : binId ≠ next) :
    binPoints capacity (next + 1) binId = binPoints capacity next binId := by
  have hlt : binId < next + 1 ↔ binId < next := by omega
  rw [binPoints, binPoints]
  simp only [hlt]

theorem binPoints_succ_self (hcap : capacity next = some size) :
    binPoints capacity (next + 1) next = points [⟨0, size⟩] := by
  rw [binPoints, hcap]
  simp [Span.points, Span.stop]

/-- A new bin comes into use, all of it free. -/
theorem openBin (h : Partitioned capacity next free live)
    (hcap : capacity next = some size) (hsize : 0 < size) :
    Partitioned capacity (next + 1) (Function.update free next [⟨0, size⟩]) live := by
  have hlive := (h.points_of_le le_rfl).2
  refine h.update (fun binId hbin => ?_) h.pos h.apart (canonical_singleton hsize) ?_ ?_
    fun binId hne => ⟨rfl, binPoints_succ_of_ne hne⟩
  · rcases Nat.lt_succ_iff_lt_or_eq.1 hbin with hbin | rfl
    · exact h.opened binId hbin
    · rw [hcap]
      rfl
  · rw [hlive]
    exact disjoint_empty_right _
  · rw [hlive, union_empty, binPoints_succ_self hcap]

/-- A new bin comes into use, with its front handed out. -/
theorem openTake (h : Partitioned capacity next free live) {len : ℕ}
    (hcap : capacity next = some size) (hlen : 0 < len) (hle : len ≤ size) :
    Partitioned capacity (next + 1)
      (Function.update free next (takeFront [] ⟨0, size⟩ [] len)) (⟨next, 0, len⟩ :: live) := by
  have hsize := hlen.trans_le hle
  have hwho : Canonical ([] ++ (⟨0, size⟩ : Span) :: []) := canonical_singleton hsize
  obtain ⟨htaken, hdisj, hpoints⟩ := hwho.takeFront hle
  have htake := (h.openBin hcap hsize).take ⟨next, 0, len⟩ htaken hlen hdisj
    (by rw [Function.update_self]; exact hpoints)
  rwa [Function.update_idem] at htake

/-- The last bin goes out of use if all of it is free. -/
theorem closeBin (h : Partitioned capacity (next + 1) free live)
    (hcap : capacity next = some size) (hfree : free next = [⟨0, size⟩]) :
    Partitioned capacity next (Function.update free next []) live := by
  have hlive : points (liveIn live next) = ∅ := by
    have hsub : points (liveIn live next) ⊆ points (free next) := by
      rw [hfree, ← binPoints_succ_self hcap, ← h.union next]
      exact subset_union_right
    exact disjoint_self_iff_empty _ |>.1 ((h.disjoint next).mono_left hsub)
  refine h.update (fun binId hbin => h.opened binId (Nat.lt_succ_of_lt hbin)) h.pos h.apart
    canonical_nil ?_ ?_ fun binId hne => ⟨rfl, (binPoints_succ_of_ne hne).symm⟩
  · rw [hlive]
    exact disjoint_empty_right _
  · rw [hlive, binPoints, if_neg (lt_irrefl _)]
    rfl

end Partitioned

/-! ### The operations -/

namespace StorageBinFreeMap

variable {map : StorageBinFreeMap} {live : List StorageBinObjectLocation}

/-- The map and the places handed out divide the bins. -/
def Divides (map : StorageBinFreeMap) (live : List StorageBinObjectLocation) : Prop :=
  Partitioned map.binCapacity map.nextBinId map.freeRanges live

theorem divides_new (layout : StorageBinLayoutPlan) : (new layout).Divides [] :=
  Partitioned.empty _

theorem binCapacity_congr {other : StorageBinFreeMap} (hbin : other.binSizeBytes = map.binSizeBytes)
    (hmax : other.maxSizeBytes = map.maxSizeBytes) : other.binCapacity = map.binCapacity := by
  funext binId
  rw [binCapacity, binCapacity, hbin, hmax]

theorem Divides.stop_le_u64 (h : map.Divides live) {binId : ℕ} {s : Span}
    (hs : s ∈ map.freeRanges binId) : s.stop ≤ U64_MAX := by
  have hle := Partitioned.stop_le h hs
  cases hcap : map.binCapacity binId with
  | none =>
    rw [hcap] at hle
    exact hle.trans (Nat.zero_le _)
  | some size =>
    rw [hcap] at hle
    exact hle.trans (capacity_le hcap)

/-- The first range that is long enough, by bin and offset. -/
def FirstFit (map : StorageBinFreeMap) (len binId : ℕ) (range : StorageBinFreeRange) : Prop :=
  map.Offers len binId range ∧ ∀ bin other, map.Offers len bin other →
    binId < bin ∨ binId = bin ∧ range.offset ≤ other.offset

/-- The next bin exists and is long enough. -/
def NextBinHolds (map : StorageBinFreeMap) (len : ℕ) : Prop :=
  ∃ capacity, map.binCapacity map.nextBinId = some capacity ∧ len ≤ capacity

/-- A place is handed out of a divided map. -/
def HandsOut (map : StorageBinFreeMap) (live : List StorageBinObjectLocation)
    (location : StorageBinObjectLocation)
    (outcome : Except IoError (Option StorageBinObjectLocation) × StorageBinFreeMap) : Prop :=
  ∃ next, outcome = (.ok (some location), next) ∧ next.binCapacity = map.binCapacity ∧
    next.Divides (location :: live)

variable {len : ℕ}

theorem Divides.allocateFromFreeRanges (h : map.Divides live) (hlen : 0 < len) :
    (map.allocateFromFreeRanges len = (.ok none, map) ∧
      ∀ binId range, ¬ map.Offers len binId range) ∨ ∃ binId range, map.FirstFit len binId range ∧
        HandsOut map live ⟨binId, range.offset, len⟩ (map.allocateFromFreeRanges len) := by
  obtain hnone | ⟨binId, before, range, after, next, hfree, hfits, hshort, hlow, heq, hbin, hmax,
    hnext, hranges⟩ := allocateFromFreeRanges_cases map len fun _ _ => h.stop_le_u64
  · exact Or.inl hnone
  · have hcan : Canonical (before ++ range :: after) := hfree ▸ h.canonical binId
    obtain ⟨htaken, hdisj, hpoints⟩ := hcan.takeFront hfits
    have hcap := binCapacity_congr hbin hmax
    refine Or.inr ⟨binId, range, ⟨⟨hfree ▸ by simp, hfits⟩, fun bin other hoff => ?_⟩,
      next, heq, hcap, ?_⟩
    · rcases lt_trichotomy bin binId with hlt | rfl | hlt
      · exact absurd hoff (hlow bin hlt other)
      · refine Or.inr ⟨rfl, ?_⟩
        obtain ⟨hmem, hlong⟩ := hoff
        simp only [hfree, List.mem_append, List.mem_cons] at hmem
        rcases hmem with hmem | rfl | hmem
        · exact absurd hlong (not_le.2 (hshort other hmem))
        · exact le_rfl
        · have hstop := (canonical_middle.1 hcan).2.2.2 other hmem
          rw [Span.stop] at hstop
          omega
      · exact Or.inl hlt
    · rw [Divides, hcap, hnext, hranges]
      exact Partitioned.take h ⟨binId, range.offset, len⟩ htaken hlen hdisj (hfree ▸ hpoints)

theorem Divides.allocateFromNextBin (h : map.Divides live) (hlen : 0 < len) :
    (map.allocateFromNextBin len = (.ok none, map) ∧ ¬ map.NextBinHolds len) ∨
      map.NextBinHolds len ∧
        HandsOut map live ⟨map.nextBinId, 0, len⟩ (map.allocateFromNextBin len) := by
  rw [StorageBinFreeMap.allocateFromNextBin, NextBinHolds]
  cases hcap : map.binCapacity map.nextBinId with
  | none => simp
  | some size =>
    dsimp only
    by_cases hlong : size < len
    · simp [hlong]
    have hle := not_lt.1 hlong
    refine Or.inr ⟨⟨size, rfl, hle⟩, ?_⟩
    have hnil : map.freeRanges map.nextBinId = [] :=
      (h.canonical _).eq_nil (Partitioned.points_of_le h le_rfl).1
    have htake := Partitioned.openTake h hcap hlen hle
    rw [if_neg hlong, saturatingAdd_of_le (succ_le_of_capacity hcap (hlen.trans_le hle))]
    by_cases hrem : 0 < size - len
    · -- the rest of the bin is free
      have hins : insertFreeRange { map with nextBinId := map.nextBinId + 1 } map.nextBinId
          ⟨len, size - len⟩ = .ok
            { map with
              nextBinId := map.nextBinId + 1
              free := map.free.insert map.nextBinId
                (Spans.insert ⟨len, size - len⟩ (map.freeRanges map.nextBinId)) } := by
        refine insertFreeRange_eq hcap hrem (Nat.add_sub_of_le hle).le fun s hs => ?_
        exact absurd (hnil ▸ hs : s ∈ []) List.not_mem_nil
      have hfront : takeFront [] ⟨0, size⟩ [] len =
          Spans.insert ⟨len, size - len⟩ (map.freeRanges map.nextBinId) := by
        rw [hnil, takeFront, if_neg (show size ≠ len by omega)]
        simp [Spans.insert, merge]
      rw [if_pos hrem, hins]
      rw [hfront, ← freeRanges_insert] at htake
      exact ⟨_, rfl, rfl, htake⟩
    · have hfront : takeFront [] ⟨0, size⟩ [] len = map.freeRanges map.nextBinId := by
        rw [hnil, takeFront, if_pos (show size = len by omega)]
        rfl
      rw [if_neg hrem]
      rw [hfront, Function.update_eq_self] at htake
      exact ⟨_, rfl, rfl, htake⟩

/-- What an allocation does to a divided map: nothing, or the first range that is long enough or
the start of the next bin is handed out. -/
theorem Divides.allocate_cases (h : map.Divides live) (hlen : 0 < len) :
    (map.allocate len = (.ok none, map) ∧ (map.binSizeBytes < len ∨
      (∀ binId range, ¬ map.Offers len binId range) ∧ ¬ map.NextBinHolds len)) ∨
    ¬ map.binSizeBytes < len ∧
      ((∃ binId range, map.FirstFit len binId range ∧
        HandsOut map live ⟨binId, range.offset, len⟩ (map.allocate len)) ∨
      (∀ binId range, ¬ map.Offers len binId range) ∧ map.NextBinHolds len ∧
        HandsOut map live ⟨map.nextBinId, 0, len⟩ (map.allocate len)) := by
  rw [allocate, if_neg hlen.ne']
  split_ifs with hsize
  · exact Or.inl ⟨rfl, Or.inl hsize⟩
  · obtain ⟨heq, hnone⟩ | ⟨binId, range, hfirst, next, heq, hnext⟩ := h.allocateFromFreeRanges hlen
    · rw [heq]
      obtain ⟨heq, hshort⟩ | hopen := h.allocateFromNextBin hlen
      · exact Or.inl ⟨heq, Or.inr ⟨hnone, hshort⟩⟩
      · exact Or.inr ⟨hsize, Or.inr ⟨hnone, hopen⟩⟩
    · rw [heq]
      exact Or.inr ⟨hsize, Or.inl ⟨binId, range, hfirst, next, rfl, hnext⟩⟩

/-- A place is handed out, or nothing happens. -/
theorem Divides.allocate (h : map.Divides live) (len : ℕ) :
    (∃ location, location.len = len ∧ HandsOut map live location (map.allocate len)) ∨
      ∃ res, map.allocate len = (res, map) ∧ ∀ location, res ≠ .ok (some location) := by
  rcases eq_zero_or_pos len with rfl | hlen
  · exact Or.inr ⟨_, rfl, fun _ heq => nomatch heq⟩
  · obtain ⟨heq, -⟩ | ⟨-, ⟨binId, range, -, hhands⟩ | ⟨-, -, hhands⟩⟩ := h.allocate_cases hlen
    · exact Or.inr ⟨_, heq, fun _ heq => nomatch heq⟩
    · exact Or.inl ⟨_, rfl, hhands⟩
    · exact Or.inl ⟨_, rfl, hhands⟩

variable {location : StorageBinObjectLocation}

/-- A place that is handed out is taken back. -/
theorem Divides.release_eq (h : map.Divides live) (hloc : location ∈ live) :
    map.release location = .ok { map with
      free := map.free.insert location.binId
        (Spans.insert location.range (map.freeRanges location.binId)) } := by
  obtain ⟨-, size, hcap, hstop⟩ := Partitioned.inside h hloc
  have hlen := h.pos location hloc
  have hmax := hstop.trans (capacity_le hcap)
  have hval : location.validate map.binSizeBytes = .ok location := by
    rw [StorageBinObjectLocation.validate, checkedAdd_eq_some.2 ⟨hmax, rfl⟩]
    refine if_neg (not_or.2 ⟨hlen.ne', not_lt.2 ?_⟩)
    exact hstop.trans (capacity_le_binSize hcap)
  rw [release, hval]
  simp only [hcap, saturatingAdd_of_le hmax, if_neg (not_lt.2 hstop)]
  refine insertFreeRange_eq hcap hlen hstop fun s hs => ?_
  have hle := Partitioned.stop_le h hs
  rwa [hcap] at hle

theorem Divides.release (h : map.Divides (location :: live)) :
    ∃ next, map.release location = .ok next ∧ next.Divides live ∧
      next.binCapacity = map.binCapacity := by
  refine ⟨_, h.release_eq List.mem_cons_self, ?_, rfl⟩
  have hgive := Partitioned.give h
  rw [← freeRanges_insert] at hgive
  exact hgive

theorem Divides.reclaimLoop {binId : ℕ} (hnext : map.nextBinId = binId) (h : map.Divides live)
    (reclaimed : List ℕ) : (StorageBinFreeMap.reclaimLoop binId map reclaimed).2.Divides live := by
  induction binId generalizing map reclaimed with
  | zero => exact h
  | succ binId ih =>
    rw [reclaimLoop.eq_def]
    dsimp only
    split
    · rename_i capacity range hcap hlookup
      by_cases hpart : range.offset ≠ 0 ∨ range.len ≠ capacity
      · rw [if_pos hpart]
        exact h
      · rw [if_neg hpart]
        push Not at hpart
        have hfree : map.freeRanges binId = [⟨0, capacity⟩] := by
          rw [freeRanges, hlookup, Option.getD_some, ← hpart.1, ← hpart.2]
        have hlast : Partitioned map.binCapacity (binId + 1) map.freeRanges live := by
          rw [← hnext]
          exact h
        have hclosed := hlast.closeBin hcap hfree
        rw [← freeRanges_erase] at hclosed
        have hdiv : Divides
            { map with free := map.free.erase binId, nextBinId := binId } live := hclosed
        exact ih rfl hdiv _
    · exact h

end StorageBinFreeMap

/-- The map, and the places that are handed out. -/
structure StorageBinState where
  map : StorageBinFreeMap
  live : List StorageBinObjectLocation

/-- The operations on the map. -/
inductive StorageBinEvent where
  | allocate (len : ℕ)
  | release (i : ℕ)
  | reclaim

namespace StorageBinState

/-- One operation.  A release takes back one of the places that are handed out. -/
def step (s : StorageBinState) : StorageBinEvent → StorageBinState
  | .allocate len =>
    match s.map.allocate len with
    | (.ok (some location), map) => ⟨map, location :: s.live⟩
    | (_, map) => ⟨map, s.live⟩
  | .release i =>
    match s.live[i]? with
    | none => s
    | some location =>
      match s.map.release location with
      | .error _ => s
      | .ok map => ⟨map, s.live.eraseIdx i⟩
  | .reclaim => ⟨s.map.reclaimFreeTailBins.2, s.live⟩

variable {lost : List StorageBinObjectLocation}

/-- One step, where some places are in use that no event can name. -/
theorem divides_step {s : StorageBinState}
    (h : s.map.Divides (s.live ++ lost)) (e : StorageBinEvent) :
    (s.step e).map.Divides ((s.step e).live ++ lost) := by
  cases e with
  | allocate len =>
    rw [step]
    rcases h.allocate len with ⟨location, -, next, heq, -, hnext⟩ | ⟨res, heq, hnot⟩
    · rw [heq]
      exact hnext
    · rw [heq]
      match res with
      | .error e => exact h
      | .ok none => exact h
      | .ok (some location) => exact absurd rfl (hnot location)
  | release i =>
    rw [step]
    split
    · exact h
    · rename_i location hi
      obtain ⟨hlt, rfl⟩ := getElem?_eq_some_iff.1 hi
      have hperm := (List.getElem_cons_eraseIdx_perm hlt).symm.append_right lost
      obtain ⟨next, hnext, hdiv, -⟩ :=
        StorageBinFreeMap.Divides.release (Partitioned.perm h hperm)
      rw [hnext]
      exact hdiv
  | reclaim => exact StorageBinFreeMap.Divides.reclaimLoop rfl h []

theorem divides_run {s : StorageBinState}
    (h : s.map.Divides (s.live ++ lost)) (events : List StorageBinEvent) :
    (events.foldl step s).map.Divides ((events.foldl step s).live ++ lost) :=
  Run.foldl_invariant (P := fun s : StorageBinState => s.map.Divides (s.live ++ lost))
    (fun _ e hs => divides_step hs e) h events

/-- **After every run of allocations, releases and reclamations the places handed out have no byte
in common and are within their bins, the free ranges of every bin are canonical, and the free
ranges and the places handed out divide the bins below the next one.** -/
theorem storage_bins_partitioned (layout : StorageBinLayoutPlan) (events : List StorageBinEvent) :
    let s := events.foldl step ⟨.new layout, []⟩
    s.live.Pairwise Apart ∧
    (∀ location ∈ s.live, 0 < location.len ∧ ∃ capacity,
      s.map.binCapacity location.binId = some capacity ∧
        location.offset + location.len ≤ capacity) ∧
    (∀ binId, Canonical (s.map.freeRanges binId)) ∧
    (∀ binId < s.map.nextBinId, (s.map.binCapacity binId).isSome) ∧
    ∀ binId,
      Disjoint (points (s.map.freeRanges binId)) (points (liveIn s.live binId)) ∧
      points (s.map.freeRanges binId) ∪ points (liveIn s.live binId) =
        binPoints s.map.binCapacity s.map.nextBinId binId := by
  intro s
  have h : s.map.Divides s.live := by
    simpa using @divides_run [] ⟨.new layout, []⟩ (StorageBinFreeMap.divides_new layout) events
  exact ⟨h.apart, fun location hloc => ⟨h.pos location hloc,
    (Partitioned.inside h hloc).2⟩, h.canonical, h.opened,
    fun binId => ⟨h.disjoint binId, h.union binId⟩⟩

/-- Two bins, the second of which is short. -/
def shortLayout : StorageBinLayoutPlan := ⟨10, 16, by decide, by decide⟩

/-- The second bin is opened, and space in the first one is used again. -/
def shortRun : List StorageBinEvent := [.allocate 7, .allocate 5, .release 1, .allocate 2, .reclaim]

theorem storage_bins_partitioned_shortRun :
    let s := shortRun.foldl step ⟨.new shortLayout, []⟩
    ⟨1, 0, 5⟩ ∈ s.live ∧ 0 < 5 ∧
      ∃ capacity, s.map.binCapacity 1 = some capacity ∧ 0 + 5 ≤ capacity := by
  have hlive : ⟨1, 0, 5⟩ ∈ (shortRun.foldl step ⟨.new shortLayout, []⟩).live := by decide +kernel
  exact ⟨hlive, (storage_bins_partitioned shortLayout shortRun).2.1 _ hlive⟩

end StorageBinState

end Fluxheim.Cache
