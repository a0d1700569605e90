import Fluxheim.Lib.Fallible
import Fluxheim.Cache.FreeMapRuns

/-!
# The free ranges after a restart

`fromOccupied` accepts the indexes whose places are within their bins and have no byte in common.  A
bin that no entry lies in is below `nextBinId` but is never given its free range, so that space is
lost where such a bin is below one with a place.
-/

namespace Fluxheim.Cache

open Spans Finset

namespace StorageBinFreeMap

/-! ### The ranges of one bin -/

theorem points_disjoint_iff {a b : Span} (hle : a.offset ≤ b.offset) (hb : 0 < b.len) :
    Disjoint a.points b.points ↔ a.stop ≤ b.offset := by
  constructor
  · intro h
    by_contra hlt
    have hmem : b.offset ∈ a.points := Span.mem_points.2 ⟨hle, not_le.1 hlt⟩
    refine disjoint_left.1 h hmem (Span.mem_points.2 ⟨le_rfl, ?_⟩)
    exact Nat.lt_add_of_pos_right hb
  · intro h
    refine disjoint_left.2 fun x hxa hxb => ?_
    rw [Span.mem_points] at hxa hxb
    omega

/-- Ranges one after the other, from `cursor` on. -/
def InOrder (cursor : ℕ) (ranges : List Span) : Prop :=
  (∀ range ∈ ranges, cursor ≤ range.offset) ∧ ranges.Pairwise fun a b => a.stop ≤ b.offset

variable {cur n : ℕ} {ranges rs : List Span}

theorem inOrder_cons {range : Span} (hlen : 0 < range.len) :
    InOrder cur (range :: ranges) ↔ cur ≤ range.offset ∧ InOrder range.stop ranges := by
  rw [InOrder, List.forall_mem_cons, List.pairwise_cons]
  constructor
  · rintro ⟨⟨hfirst, -⟩, hstop, hrest⟩
    exact ⟨hfirst, hstop, hrest⟩
  · rintro ⟨hfirst, hstop, hrest⟩
    refine ⟨⟨hfirst, fun other hother => ?_⟩, hstop, hrest⟩
    have := hstop other hother
    rw [Span.stop] at this
    omega

/-- Sorted ranges are in order exactly if they have no number in common. -/
theorem inOrder_iff (hpos : ∀ range ∈ rs, 0 < range.len) (hsorted : rs.Pairwise offsetLe) :
    InOrder 0 rs ↔ rs.Pairwise fun a b => Disjoint a.points b.points := by
  rw [InOrder, and_iff_right fun _ _ => Nat.zero_le _]
  have hpair : rs.Pairwise fun a b =>
      (Disjoint a.points b.points ↔ a.stop ≤ b.offset) :=
    hsorted.imp_of_mem fun _ hb hle => points_disjoint_iff hle (hpos _ hb)
  constructor
  · intro h
    exact (hpair.and h).imp fun ⟨hiff, hstop⟩ => hiff.2 hstop
  · intro h
    exact (hpair.and h).imp fun ⟨hiff, hdisj⟩ => hiff.1 hdisj

variable {map : StorageBinFreeMap} {binId capacity : ℕ}

/-- A map that differs from another one in the free ranges of one bin. -/
structure Refilled (map next : StorageBinFreeMap) (binId : ℕ) (ranges : List Span) : Prop where
  binSizeBytes : next.binSizeBytes = map.binSizeBytes
  maxSizeBytes : next.maxSizeBytes = map.maxSizeBytes
  nextBinId : next.nextBinId = map.nextBinId
  freeRanges : next.freeRanges = Function.update map.freeRanges binId ranges

theorem Refilled.refl (map : StorageBinFreeMap) (binId : ℕ) :
    Refilled map map binId (map.freeRanges binId) :=
  ⟨rfl, rfl, rfl, (Function.update_eq_self binId map.freeRanges).symm⟩

variable {next : StorageBinFreeMap}

theorem Refilled.trans {last : StorageBinFreeMap} {other : List Span}
    (h : Refilled map next binId rs) (h' : Refilled next last binId other) :
    Refilled map last binId other :=
  ⟨h'.binSizeBytes.trans h.binSizeBytes, h'.maxSizeBytes.trans h.maxSizeBytes,
    h'.nextBinId.trans h.nextBinId,
    by rw [h'.freeRanges, h.freeRanges, Function.update_idem]⟩

theorem Refilled.at (h : Refilled map next binId ranges) : next.freeRanges binId = ranges := by
  rw [h.freeRanges, Function.update_self]

theorem Refilled.binCapacity
    (h : Refilled map next binId rs) : next.binCapacity = map.binCapacity :=
  binCapacity_congr h.binSizeBytes h.maxSizeBytes

/-- Bytes from `cursor` to `stop` are freed, if there are any. -/
theorem insert_gap {stop : ℕ} (hcap : map.binCapacity binId = some capacity)
    (hle : cur ≤ stop) (hstop : stop ≤ capacity) (hfree : Canonical (map.freeRanges binId))
    (hbelow : points (map.freeRanges binId) ⊆ Finset.range cur) :
    ∃ next rs,
      (if cur < stop then map.insertFreeRange binId ⟨cur, stop - cur⟩ else .ok map) =
        .ok next ∧
      Refilled map next binId rs ∧ Canonical rs ∧
      points rs = points (map.freeRanges binId) ∪ Finset.Ico cur stop := by
  by_cases hlt : cur < stop
  · have hstopped : ∀ s ∈ map.freeRanges binId, s.stop ≤ capacity := fun s hs =>
      (stop_le_of_points_subset hfree.pos hbelow hs).trans (hle.trans hstop)
    have hgap : (⟨cur, stop - cur⟩ : Span).stop = stop := Nat.add_sub_of_le hle
    rw [if_pos hlt, insertFreeRange_eq hcap (Nat.sub_pos_of_lt hlt) (hgap.trans_le hstop) hstopped]
    refine ⟨_, _, rfl, ⟨rfl, rfl, rfl, freeRanges_insert _⟩,
      canonical_insert (Nat.sub_pos_of_lt hlt) hfree.pos, ?_⟩
    rw [points_insert, Span.points, hgap]
  · rw [if_neg hlt]
    refine ⟨map, map.freeRanges binId, rfl, Refilled.refl map binId, hfree, ?_⟩
    rw [Ico_eq_empty hlt, union_empty]

theorem gapLoop_cons (binId : ℕ) (range : Span) (rs : List Span) (cur : ℕ)
    (map : StorageBinFreeMap) (hle : cur ≤ range.offset) :
    gapLoop binId (range :: rs) cur map =
      (if cur < range.offset then map.insertFreeRange binId ⟨cur, range.offset - cur⟩
        else .ok map) >>= gapLoop binId rs (saturatingAdd range.offset range.len) := by
  rw [gapLoop, if_neg (not_lt.2 hle)]
  by_cases h : cur < range.offset
  · simp only [if_pos h]
  · simp only [if_neg h]

/-- The gaps of one bin are only found between ranges in order. -/
theorem gapLoop_ok {res : ℕ × StorageBinFreeMap}
    (hpos : ∀ range ∈ ranges, 0 < range.len) (hstop : ∀ range ∈ ranges, range.stop ≤ U64_MAX)
    (h : gapLoop binId ranges cur map = .ok res) : InOrder cur ranges := by
  induction ranges generalizing cur map with
  | nil => exact ⟨by simp, List.Pairwise.nil⟩
  | cons range ranges ih =>
    rw [List.forall_mem_cons] at hpos hstop
    by_cases hlt : range.offset < cur
    · rw [gapLoop, if_pos hlt] at h
      cases h
    · rw [gapLoop_cons _ _ _ _ _ (not_lt.1 hlt)] at h
      obtain ⟨next, -, hnext⟩ := Fallible.bind_eq_ok.1 h
      rw [saturatingAdd_of_le hstop.1] at hnext
      exact (inOrder_cons hpos.1).2 ⟨not_lt.1 hlt, ih hpos.2 hstop.2 hnext⟩

/-- Where the ranges are in order, their gaps are freed up to the end of the last of them. -/
theorem gapLoop_eq (hcapacity : map.binCapacity binId = some capacity) (hcur : cur ≤ capacity)
    (hpos : ∀ range ∈ rs, 0 < range.len) (hstop : ∀ range ∈ rs, range.stop ≤ capacity)
    (hord : InOrder cur rs) (hfree : Canonical (map.freeRanges binId))
    (hbelow : points (map.freeRanges binId) ⊆ Finset.range cur) :
    ∃ last next filled, gapLoop binId rs cur map = .ok (last, next) ∧
      cur ≤ last ∧ last ≤ capacity ∧ points rs ⊆ Finset.Ico cur last ∧
      Refilled map next binId filled ∧ Canonical filled ∧
      points filled = points (map.freeRanges binId) ∪ (Finset.Ico cur last \ points rs) := by
  induction rs generalizing cur map with
  | nil =>
    refine ⟨cur, map, _, rfl, le_rfl, hcur, by simp, Refilled.refl map binId, hfree, ?_⟩
    simp
  | cons range rs ih =>
    rw [List.forall_mem_cons] at hpos hstop
    obtain ⟨hle, hrest⟩ := (inOrder_cons hpos.1).1 hord
    have hlast : range.offset ≤ range.stop := Nat.le_add_right _ _
    obtain ⟨next, filled, hgap, href, hcan, hpoints⟩ :=
      insert_gap hcapacity hle (hlast.trans hstop.1) hfree hbelow
    have hbelow' : points (next.freeRanges binId) ⊆ Finset.range range.stop := by
      rw [href.at, hpoints]
      intro x hx
      rw [mem_range]
      rcases mem_union.1 hx with hx | hx
      · have := mem_range.1 (hbelow hx)
        omega
      · have := mem_Ico.1 hx
        omega
    obtain ⟨last, final, rs', hloop, hle', hcap, hsub, hfin, hcan', hpoints'⟩ :=
      ih (href.binCapacity ▸ hcapacity) hstop.1 hpos.2 hstop.2 hrest
        (href.at.symm ▸ hcan) hbelow'
    have hsat : saturatingAdd range.offset range.len = range.stop :=
      saturatingAdd_of_le (hstop.1.trans (capacity_le hcapacity))
    refine ⟨last, final, rs', ?_, hle.trans (hlast.trans hle'), hcap, ?_,
      href.trans hfin, hcan', ?_⟩
    · rw [gapLoop_cons _ _ _ _ _ hle, hgap, Fallible.ok_bind, hsat, hloop]
    · refine union_subset (fun x hx => ?_) (fun x hx => ?_)
      · rw [Span.mem_points] at hx
        exact mem_Ico.2 ⟨hle.trans hx.1, hx.2.trans_le hle'⟩
      · have := mem_Ico.1 (hsub hx)
        exact mem_Ico.2 ⟨hle.trans (hlast.trans this.1), this.2⟩
    · ext x
      have hx : x ∈ points rs → range.stop ≤ x ∧ x < last := fun h => mem_Ico.1 (hsub h)
      simp only [hpoints', href.at, hpoints, points_cons, mem_union, mem_sdiff, mem_Ico,
        Span.mem_points]
      by_cases hold : x ∈ points (map.freeRanges binId)
      · simp only [hold, true_or]
      · by_cases hmem : x ∈ points rs
        · have := hx hmem
          simp only [hold, hmem, not_true, and_false, or_false, or_true, false_or, iff_false]
          omega
        · simp only [hold, hmem, not_false_iff, and_true, or_false, false_or]
          omega

variable {bins : List (Σ _ : ℕ, List StorageBinFreeRange)}

theorem complementLoop_cons (bin : Σ _ : ℕ, List StorageBinFreeRange)
    (bins : List (Σ _ : ℕ, List StorageBinFreeRange)) (map : StorageBinFreeMap) :
    complementLoop (bin :: bins) map =
      (gapLoop bin.1 (bin.2.insertionSort offsetLe) 0 map >>= fun (cursor, next) =>
        (if cursor < (map.binCapacity bin.1).getD 0 then
          next.insertFreeRange bin.1 ⟨cursor, (map.binCapacity bin.1).getD 0 - cursor⟩
        else .ok next) >>= complementLoop bins) := by
  rw [complementLoop]
  congr 1
  funext ⟨cursor, next⟩
  by_cases h : cursor < (map.binCapacity bin.1).getD 0
  · simp only [if_pos h]
  · simp only [if_neg h]

/-- The ranges of a bin, as the index gives them, lie within it. -/
def Within (map : StorageBinFreeMap) (bin : Σ _ : ℕ, List StorageBinFreeRange) : Prop :=
  ∃ capacity, map.binCapacity bin.1 = some capacity ∧
    ∀ range ∈ bin.2, 0 < range.len ∧ range.stop ≤ capacity

/-- The ranges of a bin have no byte in common. -/
def Separate (ranges : List Span) : Prop :=
  ranges.Pairwise fun a b => Disjoint a.points b.points

theorem inOrder_insertionSort (hpos : ∀ range ∈ ranges, 0 < range.len) :
    InOrder 0 (ranges.insertionSort offsetLe) ↔ Separate ranges := by
  have hperm := ranges.perm_insertionSort offsetLe
  rw [inOrder_iff (fun range hrange => hpos range (hperm.mem_iff.1 hrange))
    (ranges.pairwise_insertionSort offsetLe)]
  exact hperm.pairwise_iff fun h => h.symm

theorem complementLoop_ok (hin : ∀ bin ∈ bins, Within map bin)
    (h : complementLoop bins map = .ok next) : ∀ bin ∈ bins, Separate bin.2 := by
  have hranges : ∀ bin ∈ bins, ∀ range ∈ bin.2, 0 < range.len ∧ range.stop ≤ U64_MAX := by
    intro bin hbin range hrange
    obtain ⟨capacity, hcap, hall⟩ := hin bin hbin
    exact ⟨(hall range hrange).1, (hall range hrange).2.trans (capacity_le hcap)⟩
  clear hin
  induction bins generalizing map with
  | nil => simp
  | cons bin bins ih =>
    rw [List.forall_mem_cons] at hranges
    rw [complementLoop_cons] at h
    obtain ⟨⟨cur, mid⟩, hgap, hrest⟩ := Fallible.bind_eq_ok.1 h
    obtain ⟨filled, -, hloop⟩ := Fallible.bind_eq_ok.1 hrest
    have hmem : ∀ range, range ∈ bin.2.insertionSort offsetLe ↔ range ∈ bin.2 :=
      fun range => (bin.2.perm_insertionSort offsetLe).mem_iff
    have hord := gapLoop_ok (fun range hrange => (hranges.1 range ((hmem range).1 hrange)).1)
      (fun range hrange => (hranges.1 range ((hmem range).1 hrange)).2) hgap
    exact List.forall_mem_cons.2
      ⟨(inOrder_insertionSort fun range hrange => (hranges.1 range hrange).1).1 hord,
        ih hloop hranges.2⟩

variable {bin : Σ _ : ℕ, List StorageBinFreeRange}

/-- One bin of the index is filled up. -/
theorem complement_bin (hin : Within map bin)
    (hsep : Separate bin.2) (hnone : map.freeRanges bin.1 = []) :
    ∃ next filled, (∀ bins, complementLoop (bin :: bins) map = complementLoop bins next) ∧
      Refilled map next bin.1 filled ∧ Canonical filled ∧
      points filled = Finset.range ((map.binCapacity bin.1).getD 0) \ points bin.2 := by
  obtain ⟨capacity, hcap, hall⟩ := hin
  have hperm := bin.2.perm_insertionSort offsetLe
  have hcan : Canonical (map.freeRanges bin.1) := hnone ▸ canonical_nil
  obtain ⟨last, mid, filled, hgap, -, hlast, hsub, hmid, hfilled, hpoints⟩ :=
    gapLoop_eq hcap (Nat.zero_le _)
      (fun range hrange => (hall range (hperm.mem_iff.1 hrange)).1)
      (fun range hrange => (hall range (hperm.mem_iff.1 hrange)).2)
      ((inOrder_insertionSort fun range hrange => (hall range hrange).1).2 hsep)
      hcan (by simp [hnone])
  rw [hnone, points_nil, empty_union, points_perm hperm] at hpoints
  rw [points_perm hperm] at hsub
  have hcap' : mid.binCapacity bin.1 = some capacity := by
    rw [hmid.binCapacity, hcap]
  have hbelow : points (mid.freeRanges bin.1) ⊆ range last := by
    rw [hmid.at, hpoints, range_eq_Ico]
    exact sdiff_subset
  obtain ⟨next, filled', htail, hnext, hfilled', hpoints'⟩ :=
    insert_gap hcap' hlast le_rfl (hmid.at.symm ▸ hfilled) hbelow
  refine ⟨next, filled', fun bins => ?_, hmid.trans hnext, hfilled', ?_⟩
  · rw [complementLoop_cons, hgap, Fallible.ok_bind, hcap, Option.getD_some]
    dsimp only
    rw [htail, Fallible.ok_bind]
  · rw [hpoints', hmid.at, hpoints, hcap, Option.getD_some]
    ext x
    have hx : x ∈ points bin.2 → x < last := fun h => (mem_Ico.1 (hsub h)).2
    simp only [mem_union, mem_sdiff, mem_Ico, mem_range]
    by_cases hmem : x ∈ points bin.2
    · have := hx hmem
      simp only [hmem, not_true, and_false, false_or, iff_false]
      omega
    · simp only [hmem, not_false_iff, and_true]
      omega

/-- What the bins leave free, where every bin is listed once. -/
theorem complementLoop_eq (hin : ∀ bin ∈ bins, Within map bin)
    (hsep : ∀ bin ∈ bins, Separate bin.2) (hnone : ∀ bin ∈ bins, map.freeRanges bin.1 = [])
    (hnod : bins.NodupKeys) :
    ∃ next, complementLoop bins map = .ok next ∧ next.binCapacity = map.binCapacity ∧
      next.nextBinId = map.nextBinId ∧
      (∀ binId ∉ bins.keys, next.freeRanges binId = map.freeRanges binId) ∧
      ∀ bin ∈ bins, Canonical (next.freeRanges bin.1) ∧
        points (next.freeRanges bin.1) =
          Finset.range ((map.binCapacity bin.1).getD 0) \ points bin.2 := by
  induction bins generalizing map with
  | nil => exact ⟨map, rfl, rfl, rfl, fun _ _ => rfl, by simp⟩
  | cons bin bins ih =>
    rw [List.forall_mem_cons] at hin hsep hnone
    rw [List.nodupKeys_cons] at hnod
    obtain ⟨mid, filled, hstep, hmid, hcan, hpoints⟩ :=
      complement_bin hin.1 hsep.1 hnone.1
    have hother : ∀ binId, binId ≠ bin.1 → mid.freeRanges binId = map.freeRanges binId :=
      fun binId hne => by rw [hmid.freeRanges, Function.update_of_ne hne]
    have hne : ∀ other ∈ bins, other.1 ≠ bin.1 := fun other hmem heq =>
      hnod.1 (heq ▸ List.mem_keys_of_mem hmem)
    have hin' : ∀ other ∈ bins, Within mid other := fun other hmem => by
      rw [Within, hmid.binCapacity]
      exact hin.2 other hmem
    have hnone' : ∀ other ∈ bins, mid.freeRanges other.1 = [] := fun other hmem =>
      (hother _ (hne other hmem)).trans (hnone.2 other hmem)
    obtain ⟨next, hloop, hcap, hnextBin, hrest, hbins⟩ :=
      ih hin' hsep.2 hnone' hnod.2
    refine ⟨next, (hstep bins).trans hloop, hcap.trans hmid.binCapacity,
      hnextBin.trans hmid.nextBinId, fun binId hbinId => ?_,
      List.forall_mem_cons.2 ⟨?_, fun other hmem => ?_⟩⟩
    · rw [List.keys_cons, List.mem_cons, not_or] at hbinId
      rw [hrest binId hbinId.2, hother binId hbinId.1]
    · rw [hrest bin.1 hnod.1, hmid.at]
      exact ⟨hcan, hpoints⟩
    · have := hbins other hmem
      rwa [hmid.binCapacity] at this

/-- A place is within its bin, and the bin is within the budget. -/
def Fits (map : StorageBinFreeMap) (location : StorageBinObjectLocation) : Prop :=
  0 < location.len ∧ ∃ capacity, map.binCapacity location.binId = some capacity ∧
    location.offset + location.len ≤ capacity

variable {layout : StorageBinLayoutPlan} {entries : List StorageBinIndexEntry}
  {occupied : AList fun _ : ℕ => List StorageBinFreeRange}

theorem validate_eq_ok {loc loc' : StorageBinObjectLocation} {size : ℕ} :
    loc.validate size = .ok loc' ↔
      loc' = loc ∧ 0 < loc.len ∧ loc.offset + loc.len ≤ U64_MAX ∧
        loc.offset + loc.len ≤ size := by
  rw [StorageBinObjectLocation.validate, checkedAdd]
  by_cases hmax : loc.offset + loc.len ≤ U64_MAX
  · rw [if_pos hmax]
    dsimp only
    by_cases hout : loc.len = 0 ∨ size < loc.offset + loc.len
    · rw [if_pos hout]
      simp only [false_iff, reduceCtorEq]
      omega
    · rw [if_neg hout, eq_comm]
      have : 0 < loc.len ∧ loc.offset + loc.len ≤ size := by omega
      simp [hmax, this]
  · simp [hmax]

theorem occupyLoop_cons {e : StorageBinIndexEntry} (hsize : map.binSizeBytes = layout.binSizeBytes)
    (hfits : Fits map e.location) :
    occupyLoop layout (e :: entries) map occupied =
      occupyLoop layout entries
        { map with nextBinId := max map.nextBinId (e.location.binId + 1) }
        (occupied.insert e.location.binId
          ((occupied.lookup e.location.binId).getD [] ++ [e.location.range])) := by
  obtain ⟨hlen, capacity, hcap, hle⟩ := hfits
  have hmax := capacity_le hcap
  have hval : e.location.validate layout.binSizeBytes = .ok e.location :=
    validate_eq_ok.2 ⟨rfl, hlen, hle.trans hmax,
      hle.trans ((capacity_le_binSize hcap).trans hsize.le)⟩
  have hsucc := succ_le_of_capacity hcap (by omega)
  rw [occupyLoop, hval]
  dsimp only
  rw [hcap]
  dsimp only
  rw [saturatingAdd_of_le (hle.trans hmax), if_neg (not_lt.2 hle), saturatingAdd_of_le hsucc]

theorem occupyLoop_ok {res : StorageBinFreeMap × AList fun _ : ℕ => List StorageBinFreeRange}
    (hsize : map.binSizeBytes = layout.binSizeBytes)
    (h : occupyLoop layout entries map occupied = .ok res) :
    ∀ e ∈ entries, Fits map e.location := by
  induction entries generalizing map occupied with
  | nil => simp
  | cons e entries ih =>
    have hfits : Fits map e.location := by
      rw [occupyLoop] at h
      split at h
      · cases h
      · rename_i location hval
        obtain ⟨rfl, hlen, hmax, -⟩ := validate_eq_ok.1 hval
        split at h
        · cases h
        · rename_i capacity hcap
          rw [saturatingAdd_of_le hmax] at h
          split_ifs at h with hlt
          exact ⟨hlen, capacity, hcap, not_lt.1 hlt⟩
    rw [occupyLoop_cons hsize hfits] at h
    have hrest := ih (by exact hsize) h
    exact List.forall_mem_cons.2 ⟨hfits, hrest⟩

theorem liveIn_cons (loc : StorageBinObjectLocation) (live : List StorageBinObjectLocation)
    (binId : ℕ) :
    liveIn (loc :: live) binId =
      (if loc.binId = binId then [loc.range] else []) ++ liveIn live binId := by
  by_cases h : loc.binId = binId
  · simp [liveIn, h]
  · simp [liveIn, h]

variable {live : List StorageBinObjectLocation}

/-- No two places of a list have a byte in common exactly if that is so in every bin. -/
theorem apart_iff : live.Pairwise Apart ↔ ∀ binId, Separate (liveIn live binId) := by
  simp only [Separate, liveIn, List.pairwise_map, List.pairwise_filter, decide_eq_true_eq]
  constructor
  · intro h binId
    refine h.imp fun hapart ha hb => hapart (ha.trans hb.symm)
  · intro h
    refine List.pairwise_iff_getElem.2 fun i j hi hj hij heq => ?_
    exact List.pairwise_iff_getElem.1 (h _) i j hi hj hij heq rfl

/-- The places of the index bin by bin, and the bins in use. -/
theorem occupyLoop_eq (hsize : map.binSizeBytes = layout.binSizeBytes)
    (hfits : ∀ e ∈ entries, Fits map e.location) :
    ∃ next listed, occupyLoop layout entries map occupied = .ok (next, listed) ∧
      next.freeRanges = map.freeRanges ∧ next.binCapacity = map.binCapacity ∧
      (∀ binId, binId < next.nextBinId ↔
        binId < map.nextBinId ∨ ∃ e ∈ entries, binId ≤ e.location.binId) ∧
      (∀ binId, (listed.lookup binId).getD [] =
        (occupied.lookup binId).getD [] ++ liveIn (entries.map (·.location)) binId) ∧
      ∀ binId, binId ∈ listed ↔
        binId ∈ occupied ∨ ∃ e ∈ entries, e.location.binId = binId := by
  induction entries generalizing map occupied with
  | nil =>
    refine ⟨map, occupied, rfl, rfl, rfl, ?_, ?_, ?_⟩
    · simp
    · simp [liveIn]
    · simp
  | cons e entries ih =>
    rw [List.forall_mem_cons] at hfits
    rw [occupyLoop_cons hsize hfits.1]
    obtain ⟨next, listed, hloop, hfree, hcap, hnext, hlist, hkeys⟩ :=
      @ih { map with nextBinId := max map.nextBinId (e.location.binId + 1) }
        (occupied.insert e.location.binId
          ((occupied.lookup e.location.binId).getD [] ++ [e.location.range]))
        hsize hfits.2
    refine ⟨next, listed, hloop, hfree, hcap, fun binId => ?_, fun binId => ?_, fun binId => ?_⟩
    · rw [hnext, List.exists_mem_cons_iff, lt_max_iff, Nat.lt_succ_iff, or_assoc]
    · rw [hlist, List.map_cons, liveIn_cons, ← List.append_assoc]
      congr 1
      by_cases hbin : e.location.binId = binId
      · subst hbin
        rw [AList.lookup_insert, Option.getD_some, if_pos rfl]
      · rw [AList.lookup_insert_ne (Ne.symm hbin), if_neg hbin, List.append_nil]
    · rw [hkeys, AList.mem_insert, List.exists_mem_cons_iff, eq_comm, or_assoc, or_left_comm]

theorem foldl_saturatingAdd (l : List ℕ) (hn : n ≤ U64_MAX) :
    l.foldl saturatingAdd n = min (n + l.sum) U64_MAX := by
  induction l generalizing n with
  | nil => simp [hn]
  | cons a l ih =>
    have hstep : saturatingAdd n a ≤ U64_MAX := min_le_right _ _
    rw [List.foldl_cons, ih hstep, List.sum_cons, saturatingAdd]
    omega

theorem binCapacity_getD (map : StorageBinFreeMap) (binId : ℕ) :
    (map.binCapacity binId).getD 0 =
      min map.binSizeBytes (map.maxSizeBytes - binId * map.binSizeBytes) := by
  cases h : map.binCapacity binId with
  | some capacity => exact (binCapacity_eq_some.1 h).2
  | none =>
    have hout : ¬ binId * map.binSizeBytes < map.maxSizeBytes := fun hlt => by
      rw [binCapacity_eq_some.2 ⟨hlt, rfl⟩] at h
      cases h
    rw [Option.getD_none]
    omega

/-- The bins fill the budget from the front. -/
theorem sum_binCapacity (map : StorageBinFreeMap) (n : ℕ) :
    ∑ binId ∈ Finset.range n, (map.binCapacity binId).getD 0 =
      min (n * map.binSizeBytes) map.maxSizeBytes := by
  induction n with
  | zero => simp
  | succ n ih =>
    rw [sum_range_succ, binCapacity_getD, Nat.succ_mul]
    omega

theorem sum_filterMap_eq {α : Type*} (f : α → Option ℕ) (l : List α) :
    (l.filterMap f).sum = (l.map fun a => (f a).getD 0).sum := by
  induction l with
  | nil => rfl
  | cons a l ih =>
    cases h : f a with
    | none => simp [h, ih]
    | some n => simp [h, ih]

theorem allocatedSizeBytes_eq (map : StorageBinFreeMap) :
    map.allocatedSizeBytes =
      ∑ binId ∈ Finset.range map.nextBinId, (map.binCapacity binId).getD 0 := by
  have hmax := map.maxSizeBytes_le
  have hsum := sum_binCapacity map map.nextBinId
  rw [allocatedSizeBytes, foldl_saturatingAdd _ (Nat.zero_le _), sum_filterMap_eq,
    ← List.sum_toFinset _ List.nodup_range, List.toFinset_range]
  omega

theorem total_liveIn_cons (loc : StorageBinObjectLocation)
    (live : List StorageBinObjectLocation) (binId : ℕ) :
    total (liveIn (loc :: live) binId) =
      (if loc.binId = binId then loc.len else 0) + total (liveIn live binId) := by
  rw [liveIn_cons]
  by_cases h : loc.binId = binId
  · simp [total, h, StorageBinObjectLocation.range]
  · simp [total, h]

theorem sum_total_liveIn (h : ∀ loc ∈ live, loc.binId < n) :
    ∑ binId ∈ Finset.range n, total (liveIn live binId) = (live.map (·.len)).sum := by
  induction live with
  | nil => simp [liveIn, total]
  | cons loc live ih =>
    rw [List.forall_mem_cons] at h
    simp only [total_liveIn_cons, sum_add_distrib, ih h.2, sum_ite_eq,
      mem_range, h.1, if_true, List.map_cons, List.sum_cons]

/-- The free bytes of the map, bin by bin, where no bin is free beyond the next one. -/
theorem sum_free (hbeyond : ∀ binId, map.nextBinId ≤ binId → map.freeRanges binId = []) :
    ((map.free.entries.flatMap (·.2)).map (·.len)).sum =
      ∑ binId ∈ Finset.range map.nextBinId, total (map.freeRanges binId) := by
  have hents : ((map.free.entries.flatMap (·.2)).map (·.len)).sum =
      (map.free.keys.map fun binId => total (map.freeRanges binId)).sum := by
    rw [AList.keys, List.keys, List.map_map, List.map_flatMap, List.flatMap_def,
      List.sum_flatten, List.map_map]
    refine congrArg List.sum (List.map_congr_left fun e he => ?_)
    show total e.2 = total ((map.free.lookup e.1).getD [])
    rw [AList.mem_lookup_iff.2 he, Option.getD_some]
  rw [hents, ← List.sum_toFinset _ map.free.keys_nodup]
  have hleft : ∑ binId ∈ map.free.keys.toFinset, total (map.freeRanges binId) =
      ∑ binId ∈ map.free.keys.toFinset ∪ range map.nextBinId,
        total (map.freeRanges binId) := by
    refine sum_subset subset_union_left fun binId _ hnot => ?_
    have hnone : map.free.lookup binId = none :=
      AList.lookup_eq_none.2 fun h => hnot (List.mem_toFinset.2 h)
    rw [freeRanges, hnone]
    rfl
  rw [hleft]
  refine (sum_subset subset_union_right fun binId _ hnot => ?_).symm
  rw [hbeyond binId (not_lt.1 fun h => hnot (mem_range.2 h))]
  rfl

/-- Of a divided map, the free bytes and the bytes handed out are the bytes of the bins in use. -/
theorem Divides.sizes (h : map.Divides live) :
    map.freeSizeBytes + (live.map (·.len)).sum = map.allocatedSizeBytes := by
  have hbeyond : ∀ binId, map.nextBinId ≤ binId → map.freeRanges binId = [] := fun binId hle =>
    (h.canonical binId).eq_nil (Partitioned.points_of_le h hle).1
  have hbin : ∀ binId ∈ range map.nextBinId,
      (map.binCapacity binId).getD 0 =
        total (map.freeRanges binId) + total (liveIn live binId) := by
    intro binId hbinId
    have hunion := congrArg card (h.union binId)
    rw [card_union_of_disjoint (h.disjoint binId), binPoints,
      if_pos (mem_range.1 hbinId), card_range] at hunion
    rw [total_eq_card (h.canonical binId).disjoint,
      total_eq_card (apart_iff.1 h.apart binId), hunion]
  have hsum : map.allocatedSizeBytes =
      ((map.free.entries.flatMap (·.2)).map (·.len)).sum + (live.map (·.len)).sum := by
    rw [allocatedSizeBytes_eq, sum_congr rfl hbin, sum_add_distrib, sum_free hbeyond,
      sum_total_liveIn fun loc hloc => (Partitioned.inside h hloc).1]
  have hle : map.allocatedSizeBytes ≤ U64_MAX := by
    have hmax := map.maxSizeBytes_le
    rw [allocatedSizeBytes_eq, sum_binCapacity]
    omega
  rw [freeSizeBytes, foldl_saturatingAdd _ (Nat.zero_le _)]
  omega

/-- **After every run the free bytes and the bytes handed out are all bytes of the bins in use.** -/
theorem storage_bytes_conserved (layout : StorageBinLayoutPlan) (events : List StorageBinEvent) :
    let s := events.foldl StorageBinState.step ⟨new layout, []⟩
    s.map.freeSizeBytes + (s.live.map (·.len)).sum = s.map.allocatedSizeBytes ∧
      s.map.allocatedSizeBytes ≤ s.map.maxSizeBytes := by
  intro s
  have hdiv : s.map.Divides s.live := by
    simpa using @StorageBinState.divides_run [] ⟨new layout, []⟩ (divides_new layout) events
  refine ⟨hdiv.sizes, ?_⟩
  rw [allocatedSizeBytes_eq, sum_binCapacity]
  exact min_le_right _ _

/-! ### The rebuilt map -/

/-- The places of an index are within the bins and the budget, and have no byte in common. -/
def Admissible (layout : StorageBinLayoutPlan) (entries : List StorageBinIndexEntry) : Prop :=
  (∀ entry ∈ entries, Fits (new layout) entry.location) ∧
    (entries.map (·.location)).Pairwise Apart

/-- Every bin below one that holds an object holds one too. -/
def NoGaps (entries : List StorageBinIndexEntry) : Prop :=
  ∀ entry ∈ entries, ∀ binId < entry.location.binId, ∃ other ∈ entries, other.location.binId = binId

theorem liveIn_eq_nil {binId : ℕ} :
    liveIn (entries.map (·.location)) binId = [] ↔
      ¬ ∃ e ∈ entries, e.location.binId = binId := by
  simp [liveIn, List.filter_eq_nil_iff]

/-- The list of the bins that the second loop goes over. -/
theorem listed_bins {listed : AList fun _ : ℕ => List StorageBinFreeRange}
    (hlookup : ∀ binId, (listed.lookup binId).getD [] = liveIn (entries.map (·.location)) binId)
    (hkeys : ∀ binId, binId ∈ listed ↔ ∃ e ∈ entries, e.location.binId = binId) :
    bin ∈ listed.entries.insertionSort (fun a b => a.1 ≤ b.1) ↔
      (∃ e ∈ entries, e.location.binId = bin.1) ∧
        bin.2 = liveIn (entries.map (·.location)) bin.1 := by
  rw [(listed.entries.perm_insertionSort _).mem_iff, ← hlookup bin.1, ← hkeys]
  constructor
  · intro hmem
    have hsome := AList.mem_lookup_iff.2 hmem
    refine ⟨AList.lookup_isSome.1 (Option.isSome_of_mem hsome), ?_⟩
    rw [hsome, Option.getD_some]
  · rintro ⟨hin, hranges⟩
    obtain ⟨rs, hsome⟩ := Option.isSome_iff_exists.1 (AList.lookup_isSome.2 hin)
    rw [hsome] at hranges
    obtain ⟨binId, rs'⟩ := bin
    subst hranges
    exact AList.mem_lookup_iff.1 hsome

theorem within_of_fits {other : StorageBinFreeMap} (hcap : other.binCapacity = map.binCapacity)
    (hfits : ∀ e ∈ entries, Fits map e.location) (hbin : ∃ e ∈ entries, e.location.binId = bin.1)
    (hranges : bin.2 = liveIn (entries.map (·.location)) bin.1) : Within other bin := by
  obtain ⟨e, hentry, hsame'⟩ := hbin
  obtain ⟨-, capacity, hsome, -⟩ := hfits e hentry
  rw [hsame'] at hsome
  refine ⟨capacity, hcap ▸ hsome, fun range hrange => ?_⟩
  rw [hranges] at hrange
  obtain ⟨loc, hloc, rfl⟩ := List.mem_map.1 hrange
  rw [List.mem_filter, List.mem_map, decide_eq_true_eq] at hloc
  obtain ⟨⟨listed, hlist, rfl⟩, hsame⟩ := hloc
  obtain ⟨hlen, size, hsize, hle⟩ := hfits listed hlist
  rw [hsame, hsome] at hsize
  obtain rfl := Option.some.inj hsize
  exact ⟨hlen, hle⟩

/-- The map that is rebuilt from an index. -/
structure Rebuilt (layout : StorageBinLayoutPlan) (entries : List StorageBinIndexEntry)
    (map : StorageBinFreeMap) : Prop where
  binCapacity : map.binCapacity = (new layout).binCapacity
  nextBinId : ∀ binId, binId < map.nextBinId ↔ ∃ entry ∈ entries, binId ≤ entry.location.binId
  unlisted : ∀ binId, (¬ ∃ entry ∈ entries, entry.location.binId = binId) →
    map.freeRanges binId = []
  listed : ∀ binId, (∃ entry ∈ entries, entry.location.binId = binId) →
    Canonical (map.freeRanges binId) ∧
      points (map.freeRanges binId) = Finset.range ((map.binCapacity binId).getD 0) \
        points (liveIn (entries.map (·.location)) binId)

/-- The first loop of `fromOccupied`, where the places fit. -/
theorem occupyLoop_new (hfits : ∀ e ∈ entries, Fits (new layout) e.location) :
    ∃ next listed, occupyLoop layout entries (new layout) ∅ = .ok (next, listed) ∧
      (∀ binId, next.freeRanges binId = []) ∧ next.binCapacity = (new layout).binCapacity ∧
      (∀ binId, binId < next.nextBinId ↔ ∃ e ∈ entries, binId ≤ e.location.binId) ∧
      ∀ bin, bin ∈ listed.entries.insertionSort (fun a b => a.1 ≤ b.1) ↔
        (∃ e ∈ entries, e.location.binId = bin.1) ∧
          bin.2 = liveIn (entries.map (·.location)) bin.1 := by
  obtain ⟨next, listed, hocc, hfree, hcap, hnext, hlookup, hkeys⟩ :=
    @occupyLoop_eq (new layout) layout entries ∅ rfl hfits
  refine ⟨next, listed, hocc, fun binId => ?_, hcap, fun binId => ?_, fun bin => ?_⟩
  · rw [hfree]
    rfl
  · rw [hnext]
    simp [new]
  · exact listed_bins (by simpa using hlookup) (by simpa using hkeys)

theorem fromOccupied_ok (h : fromOccupied layout entries = .ok map) :
    Admissible layout entries := by
  obtain ⟨⟨next, listed⟩, hocc, hcom⟩ := Fallible.bind_eq_ok.1 h
  have hfits : ∀ e ∈ entries, Fits (new layout) e.location := occupyLoop_ok rfl hocc
  obtain ⟨next', listed', hocc', -, hcap, -, hbins⟩ := occupyLoop_new hfits
  rw [hocc'] at hocc
  obtain ⟨rfl, rfl⟩ := Prod.mk.inj (Except.ok.inj hocc)
  have hin : ∀ bin ∈ listed'.entries.insertionSort (fun a b => a.1 ≤ b.1), Within next' bin :=
    fun bin hbin => within_of_fits hcap hfits ((hbins bin).1 hbin).1 ((hbins bin).1 hbin).2
  refine ⟨hfits, apart_iff.2 fun binId => ?_⟩
  by_cases hlist : ∃ e ∈ entries, e.location.binId = binId
  · exact complementLoop_ok hin hcom ⟨binId, _⟩ ((hbins _).2 ⟨hlist, rfl⟩)
  · rw [liveIn_eq_nil.2 hlist]
    exact List.Pairwise.nil

theorem fromOccupied_eq (h : Admissible layout entries) :
    ∃ map, fromOccupied layout entries = .ok map ∧ Rebuilt layout entries map := by
  obtain ⟨hfits, hapart⟩ := h
  obtain ⟨next, listed, hocc, hnone, hcap, hnext, hbins⟩ := occupyLoop_new hfits
  have hwithin : ∀ bin ∈ listed.entries.insertionSort (fun a b => a.1 ≤ b.1), Within next bin :=
    fun bin hbin => within_of_fits hcap hfits ((hbins bin).1 hbin).1 ((hbins bin).1 hbin).2
  obtain ⟨map, hcom, hcap', hnext', hother, hlist⟩ :=
    complementLoop_eq hwithin (fun bin hbin => ((hbins bin).1 hbin).2 ▸ apart_iff.1 hapart bin.1)
      (fun bin _ => hnone bin.1)
      ((List.perm_nodupKeys (listed.entries.perm_insertionSort _)).2 listed.nodupKeys)
  refine ⟨map, ?_, hcap'.trans hcap, fun binId => ?_, fun binId hunlisted => ?_,
    fun binId hin => ?_⟩
  · rw [fromOccupied, hocc]
    exact hcom
  · rw [hnext', hnext]
  · rw [hother binId fun hkey => ?_, hnone]
    obtain ⟨rs, hbin⟩ := List.exists_of_mem_keys hkey
    exact hunlisted ((hbins _).1 hbin).1
  · rw [hcap']
    exact hlist ⟨binId, _⟩ ((hbins _).2 ⟨hin, rfl⟩)

/-- The rebuilt map divides the bins exactly if no bin without an object lies below another. -/
theorem Rebuilt.divides_iff (h : Rebuilt layout entries map) (hfits : Admissible layout entries) :
    map.Divides (entries.map (·.location)) ↔ NoGaps entries := by
  constructor
  · intro hdiv e hentry binId hlt
    by_contra hunlisted
    have hunion := hdiv.union binId
    have hnext : binId < map.nextBinId := (h.nextBinId binId).2 ⟨e, hentry, hlt.le⟩
    rw [h.unlisted binId hunlisted, liveIn_eq_nil.2 hunlisted, binPoints, if_pos hnext, points_nil,
      empty_union, eq_comm, range_eq_empty_iff, h.binCapacity] at hunion
    obtain ⟨hlen, capacity, hcap, hle⟩ := hfits.1 e hentry
    obtain ⟨hstart, hsize⟩ := binCapacity_eq_some.1 hcap
    rw [binCapacity_getD] at hunion
    have hmul := Nat.mul_le_mul_right (new layout).binSizeBytes hlt.le
    omega
  · intro hnogaps
    have hlist : ∀ binId < map.nextBinId, ∃ e ∈ entries, e.location.binId = binId := by
      intro binId hlt
      obtain ⟨e, hentry, hle⟩ := (h.nextBinId binId).1 hlt
      rcases hle.lt_or_eq with hlt' | heq
      · exact hnogaps e hentry binId hlt'
      · exact ⟨e, hentry, heq.symm⟩
    have hwithin : ∀ binId, points (liveIn (entries.map (·.location)) binId) ⊆
        range ((map.binCapacity binId).getD 0) := by
      intro binId x hx
      obtain ⟨range, hrange, hx⟩ := mem_points.1 hx
      have hin : ∃ e ∈ entries, e.location.binId = binId := by
        by_contra hunlisted
        rw [liveIn_eq_nil.2 hunlisted] at hrange
        cases hrange
      obtain ⟨capacity, hcap, hall⟩ := @within_of_fits (new layout)
        ⟨binId, liveIn (entries.map (·.location)) binId⟩ entries map h.binCapacity hfits.1 hin rfl
      rw [hcap, mem_range]
      exact (Span.mem_points.1 hx).2.trans_le (hall range hrange).2
    refine ⟨fun binId hlt => ?_, fun binId => ?_, ?_, hfits.2, fun binId => ?_,
      fun binId => ?_⟩
    · obtain ⟨e, hentry, rfl⟩ := hlist binId hlt
      obtain ⟨-, capacity, hcap, -⟩ := hfits.1 e hentry
      rw [h.binCapacity, hcap]
      rfl
    · by_cases hin : ∃ e ∈ entries, e.location.binId = binId
      · exact (h.listed binId hin).1
      · exact h.unlisted binId hin ▸ canonical_nil
    · intro loc hloc
      obtain ⟨e, hentry, rfl⟩ := List.mem_map.1 hloc
      exact (hfits.1 e hentry).1
    · by_cases hin : ∃ e ∈ entries, e.location.binId = binId
      · rw [(h.listed binId hin).2]
        exact sdiff_disjoint
      · rw [h.unlisted binId hin]
        exact disjoint_empty_left _
    · by_cases hin : ∃ e ∈ entries, e.location.binId = binId
      · have hlt : binId < map.nextBinId := by
          obtain ⟨e, hentry, heq⟩ := hin
          exact (h.nextBinId binId).2 ⟨e, hentry, heq.ge⟩
        rw [(h.listed binId hin).2, binPoints, if_pos hlt, sdiff_union_of_subset (hwithin binId)]
      · have hge : ¬ binId < map.nextBinId := fun hlt => hin (hlist binId hlt)
        rw [h.unlisted binId hin, liveIn_eq_nil.2 hin, binPoints, if_neg hge]
        simp

/-- **`fromOccupied` accepts exactly the admissible indexes.  The map it gives leaves free exactly
what the index does not occupy in the bins below the next one, so that the free and the occupied
bytes are all bytes of these bins, exactly if an admissible index has no bin without an object
below a bin with one.** -/
theorem rebuild_complete_iff (layout : StorageBinLayoutPlan) (entries : List StorageBinIndexEntry) :
    (((∃ map, fromOccupied layout entries = .ok map) ↔ Admissible layout entries) ∧
      ∀ map, fromOccupied layout entries = .ok map →
        map.Divides (entries.map (·.location)) ∧
        map.freeSizeBytes + ((entries.map (·.location)).map (·.len)).sum =
          map.allocatedSizeBytes) ↔
    (Admissible layout entries → NoGaps entries) := by
  have hok : (∃ map, fromOccupied layout entries = .ok map) ↔ Admissible layout entries := by
    constructor
    · rintro ⟨map, hmap⟩
      exact fromOccupied_ok hmap
    · intro h
      obtain ⟨map, hmap, -⟩ := fromOccupied_eq h
      exact ⟨map, hmap⟩
  rw [and_iff_right hok]
  constructor
  · intro hall hfits
    obtain ⟨map, hmap, hbuilt⟩ := fromOccupied_eq hfits
    exact (hbuilt.divides_iff hfits).1 (hall map hmap).1
  · intro hnogaps map hmap
    have hfits := fromOccupied_ok hmap
    obtain ⟨map', hmap', hbuilt⟩ := fromOccupied_eq hfits
    obtain rfl : map' = map := Except.ok.inj (hmap'.symm.trans hmap)
    have hdiv := (hbuilt.divides_iff hfits).2 (hnogaps hfits)
    exact ⟨hdiv, hdiv.sizes⟩

/-- An index with an object in each of two bins. -/
def bothBins : List StorageBinIndexEntry :=
  [⟨[107], ⟨1, 0, 5⟩, 0, by decide⟩, ⟨[108], ⟨0, 3, 4⟩, 0, by decide⟩]

theorem rebuild_complete_iff_bothBins :
    ∃ map, fromOccupied ⟨10, 16, by decide, by decide⟩ bothBins = .ok map ∧
      map.Divides (bothBins.map (·.location)) := by
  have hnogaps : NoGaps bothBins := by
    unfold NoGaps
    decide +kernel
  have hwho := (rebuild_complete_iff ⟨10, 16, by decide, by decide⟩ bothBins).2 fun _ => hnogaps
  have hsome : (fromOccupied ⟨10, 16, by decide, by decide⟩ bothBins).toOption.isSome = true := by
    decide +kernel
  match hmap : fromOccupied ⟨10, 16, by decide, by decide⟩ bothBins with
  | .ok map => exact ⟨map, rfl, (hwho.2 map hmap).1⟩
  | .error e =>
    rw [hmap] at hsome
    cases hsome

/-- An index whose only object is in the second bin. -/
def secondBinOnly : List StorageBinIndexEntry := [⟨[107], ⟨1, 0, 5⟩, 0, by decide⟩]

/-- Two bins of ten bytes and one object of five bytes in the second: after a restart only five
bytes are free. -/
theorem secondBinOnly_loses_first_bin :
    (fromOccupied ⟨10, 20, by decide, by decide⟩ secondBinOnly).toOption.map
        (fun map => (map.freeSizeBytes, map.allocatedSizeBytes, map.freeRanges 0)) =
      some (5, 20, []) ∧
    (secondBinOnly.map (·.location.len)).sum = 5 := by
  decide +kernel

end StorageBinFreeMap

end Fluxheim.Cache
