import Mathlib.Data.List.AList
import Fluxheim.Lib.Ascii
import Fluxheim.Lib.Spans

/-!
# Space in the bins of the disk cache

The disk cache keeps its objects in files of a fixed size, the bins, of which there are as many as
the budget of the cache allows; the last of them may be short.  The free ranges of every bin are
kept in memory.  Numbers are 64 bits wide.
-/

namespace Fluxheim.Cache

def U64_MAX : ℕ := 2 ^ 64 - 1

/-- A sum that must fit. -/
def checkedAdd (a b : ℕ) : Option ℕ := if a + b ≤ U64_MAX then some (a + b) else none
/-- A product that must fit. -/
def checkedMul (a b : ℕ) : Option ℕ := if a * b ≤ U64_MAX then some (a * b) else none
/-- A sum that stops at the largest number. -/
def saturatingAdd (a b : ℕ) : ℕ := min (a + b) U64_MAX

/-- The kinds of errors. -/
inductive IoErrorKind where
  | invalidInput
  | invalidData
  deriving DecidableEq

/-- An error with its text. -/
structure IoError where
  kind : IoErrorKind
  message : String
  deriving DecidableEq

/-- The sizes of a bin and of the cache. -/
structure StorageBinLayoutPlan where
  binSizeBytes : ℕ
  maxSizeBytes : ℕ
  binSizeBytes_le : binSizeBytes ≤ U64_MAX
  maxSizeBytes_le : maxSizeBytes ≤ U64_MAX

/-- A place in a bin. -/
structure StorageBinObjectLocation where
  binId : ℕ
  offset : ℕ
  len : ℕ
  deriving DecidableEq

variable (location : StorageBinObjectLocation)

/-- The place is not empty and is inside its bin. -/
def StorageBinObjectLocation.validate (binSize : ℕ) : Except IoError StorageBinObjectLocation :=
  match checkedAdd location.offset location.len with
  | none => .error ⟨.invalidData, "storage-bin object location overflows"⟩
  | some stop =>
    if location.len = 0 ∨ binSize < stop then
      .error ⟨.invalidData, "storage-bin object location is outside its bin"⟩
    else .ok location

/-- A range of a bin that is free, or in use. -/
abbrev StorageBinFreeRange := Span

/-- The range of a place. -/
def StorageBinObjectLocation.range : StorageBinFreeRange :=
  ⟨location.offset, location.len⟩

/-- One line of the index: the key of an object, a text, its place, and when it was last used, in
nanoseconds since the epoch. -/
structure StorageBinIndexEntry where
  combinedKey : Ascii.Bytes
  location : StorageBinObjectLocation
  accessed : ℤ
  combinedKey_utf8 : Ascii.utf8Valid combinedKey = true
  deriving DecidableEq

/-! ### Free ranges -/

/-- The free ranges, and the number of bins in use. -/
structure StorageBinFreeMap where
  binSizeBytes : ℕ
  maxSizeBytes : ℕ
  nextBinId : ℕ
  free : AList fun _ : ℕ => List StorageBinFreeRange
  maxSizeBytes_le : maxSizeBytes ≤ U64_MAX

/-- The ranges in the order of their offsets, with those run together that touch; the last one
that is done is at the head. -/
def mergeRanges : List StorageBinFreeRange → List StorageBinFreeRange → List StorageBinFreeRange
  | merged, [] => merged.reverse
  | [], range :: ranges => mergeRanges [range] ranges
  | last :: merged, range :: ranges =>
    let lastEnd := saturatingAdd last.offset last.len
    if range.offset ≤ lastEnd then
      let rangeEnd := saturatingAdd range.offset range.len
      mergeRanges (⟨last.offset, max (rangeEnd - last.offset) last.len⟩ :: merged) ranges
    else mergeRanges (range :: last :: merged) ranges

namespace StorageBinFreeMap

variable (map : StorageBinFreeMap)

/-- No bin is in use. -/
def new (layout : StorageBinLayoutPlan) : StorageBinFreeMap where
  binSizeBytes := layout.binSizeBytes
  maxSizeBytes := layout.maxSizeBytes
  nextBinId := 0
  free := ∅
  maxSizeBytes_le := layout.maxSizeBytes_le

/-- The size of a bin, if the budget allows it. -/
def binCapacity (binId : ℕ) : Option ℕ :=
  match checkedMul binId map.binSizeBytes with
  | none => none
  | some start =>
    if map.maxSizeBytes ≤ start then none
    else some (min map.binSizeBytes (map.maxSizeBytes - start))

/-- The free ranges of a bin. -/
def freeRanges (binId : ℕ) : List StorageBinFreeRange := (map.free.lookup binId).getD []

/-- A range becomes free, and is merged with its neighbours. -/
def insertFreeRange (binId : ℕ) (range : StorageBinFreeRange) : Except IoError StorageBinFreeMap :=
  if range.len = 0 then .ok map
  else
    match map.binCapacity binId with
    | none =>
      .error ⟨.invalidInput,
        "storage-bin free range references a bin outside the configured cache budget"⟩
    | some capacity =>
      match checkedAdd range.offset range.len with
      | none => .error ⟨.invalidInput, "storage-bin free range overflows"⟩
      | some stop =>
        if capacity < stop then
          .error ⟨.invalidInput, "storage-bin free range exceeds the bin capacity"⟩
        else
          let ranges := (map.freeRanges binId ++ [range]).insertionSort Spans.offsetLe
          .ok { map with free := map.free.insert binId (mergeRanges [] ranges) }

/-- The first range that is long enough, in the bin with the lowest number. -/
def selectRange (len : ℕ) : Option (ℕ × ℕ) :=
  (map.free.entries.insertionSort fun a b => a.1 ≤ b.1).findSome? fun e =>
    (e.2.findIdx? (len ≤ ·.len)).map fun index => (e.1, index)

/-- The front of a free range is handed out. -/
def allocateFromFreeRanges (len : ℕ) :
    Except IoError (Option StorageBinObjectLocation) × StorageBinFreeMap :=
  match map.selectRange len with
  | none => (.ok none, map)
  | some (binId, index) =>
    match map.free.lookup binId with
    | none =>
      (.error ⟨.invalidData, "storage-bin free range disappeared during allocation"⟩, map)
    | some ranges =>
      match ranges[index]? with
      -- the index comes from this very list
      | none => (.error ⟨.invalidData, "index out of bounds"⟩, map)
      | some range =>
        let ranges :=
          if range.len = len then ranges.eraseIdx index
          else ranges.set index ⟨saturatingAdd range.offset len, range.len - len⟩
        (.ok (some ⟨binId, range.offset, len⟩),
          { map with
            free :=
              if ranges = [] then map.free.erase binId else map.free.insert binId ranges })

/-- A new bin is opened, with the object at its front. -/
def allocateFromNextBin (len : ℕ) :
    Except IoError (Option StorageBinObjectLocation) × StorageBinFreeMap :=
  match map.binCapacity map.nextBinId with
  | none => (.ok none, map)
  | some capacity =>
    if capacity < len then (.ok none, map)
    else
      let binId := map.nextBinId
      let opened := { map with nextBinId := saturatingAdd map.nextBinId 1 }
      let remaining := capacity - len
      let location : StorageBinObjectLocation := ⟨binId, 0, len⟩
      if 0 < remaining then
        match opened.insertFreeRange binId ⟨len, remaining⟩ with
        | .error e => (.error e, opened)
        | .ok map => (.ok (some location), map)
      else (.ok (some location), opened)

/-- A place, in a free range or in a new bin. -/
def allocate (len : ℕ) : Except IoError (Option StorageBinObjectLocation) × StorageBinFreeMap :=
  if len = 0 then
    (.error ⟨.invalidInput, "storage-bin allocation length must be greater than zero"⟩, map)
  else if map.binSizeBytes < len then (.ok none, map)
  else
    match map.allocateFromFreeRanges len with
    | (.error e, map) => (.error e, map)
    | (.ok (some location), map) => (.ok (some location), map)
    | (.ok none, map) => map.allocateFromNextBin len

/-- A place is given back. -/
def release (location : StorageBinObjectLocation) : Except IoError StorageBinFreeMap :=
  match location.validate map.binSizeBytes with
  | .error e => .error e
  | .ok _ =>
    match map.binCapacity location.binId with
    | none =>
      .error ⟨.invalidInput,
        "storage-bin release references a bin outside the configured cache budget"⟩
    | some capacity =>
      if capacity < saturatingAdd location.offset location.len then
        .error ⟨.invalidInput, "storage-bin release exceeds the bin capacity"⟩
      else map.insertFreeRange location.binId location.range

/-- The last bin is given up as long as all of it is free; `n` bins are in use. -/
def reclaimLoop : ℕ → StorageBinFreeMap → List ℕ → List ℕ × StorageBinFreeMap
  | 0, map, reclaimed => (reclaimed.reverse, map)
  | binId + 1, map, reclaimed =>
    match map.binCapacity binId, map.free.lookup binId with
    | some capacity, some [range] =>
      if range.offset ≠ 0 ∨ range.len ≠ capacity then (reclaimed.reverse, map)
      else
        reclaimLoop binId { map with free := map.free.erase binId, nextBinId := binId }
          (binId :: reclaimed)
    | _, _ => (reclaimed.reverse, map)

/-- The last bins are closed while they are free. -/
def reclaimFreeTailBins : List ℕ × StorageBinFreeMap := reclaimLoop map.nextBinId map []

/-- The places of the index, bin by bin. -/
def occupyLoop (layout : StorageBinLayoutPlan) :
    List StorageBinIndexEntry → StorageBinFreeMap →
      (AList fun _ : ℕ => List StorageBinFreeRange) →
      Except IoError (StorageBinFreeMap × AList fun _ : ℕ => List StorageBinFreeRange)
  | [], map, occupied => .ok (map, occupied)
  | entry :: entries, map, occupied =>
    match entry.location.validate layout.binSizeBytes with
    | .error e => .error e
    | .ok location =>
      match map.binCapacity location.binId with
      | none =>
        .error ⟨.invalidData,
          "storage-bin index references a bin outside the configured cache budget"⟩
      | some capacity =>
        if capacity < saturatingAdd location.offset location.len then
          .error ⟨.invalidData, "storage-bin index object exceeds bin capacity"⟩
        else
          occupyLoop layout entries
            { map with nextBinId := max map.nextBinId (saturatingAdd location.binId 1) }
            (occupied.insert location.binId
              ((occupied.lookup location.binId).getD [] ++ [location.range]))

/-- The gaps before the ranges of one bin, from `cursor` on. -/
def gapLoop (binId : ℕ) :
    List StorageBinFreeRange → ℕ → StorageBinFreeMap → Except IoError (ℕ × StorageBinFreeMap)
  | [], cursor, map => .ok (cursor, map)
  | range :: ranges, cursor, map =>
    if range.offset < cursor then
      .error ⟨.invalidData, "storage-bin index contains overlapping object ranges"⟩
    else do
      let map ←
        if cursor < range.offset then map.insertFreeRange binId ⟨cursor, range.offset - cursor⟩
        else .ok map
      gapLoop binId ranges (saturatingAdd range.offset range.len) map

/-- What the ranges leave free in each of their bins. -/
def complementLoop :
    List (Σ _ : ℕ, List StorageBinFreeRange) → StorageBinFreeMap → Except IoError StorageBinFreeMap
  | [], map => .ok map
  | bin :: bins, map => do
      let capacity := (map.binCapacity bin.1).getD 0
      let (cursor, map) ← gapLoop bin.1 (bin.2.insertionSort Spans.offsetLe) 0 map
      let map ←
        if cursor < capacity then map.insertFreeRange bin.1 ⟨cursor, capacity - cursor⟩
        else .ok map
      complementLoop bins map

/-- The map of a cache that holds the entries, and nothing else. -/
def fromOccupied (layout : StorageBinLayoutPlan) (entries : List StorageBinIndexEntry) :
    Except IoError StorageBinFreeMap := do
  let (map, occupied) ← occupyLoop layout entries (new layout) ∅
  complementLoop (occupied.entries.insertionSort fun a b => a.1 ≤ b.1) map

/-- The bytes of the bins in use. -/
def allocatedSizeBytes : ℕ :=
  ((List.range map.nextBinId).filterMap map.binCapacity).foldl saturatingAdd 0

/-- The bytes of the free ranges. -/
def freeSizeBytes : ℕ :=
  ((map.free.entries.flatMap (·.2)).map (·.len)).foldl saturatingAdd 0

end StorageBinFreeMap

end Fluxheim.Cache
