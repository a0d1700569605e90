import Fluxheim.Http1.Token
import Fluxheim.Lib.TextLines
import Fluxheim.Cache.FreeMapRebuild

/-!
# The index of the bins

The places of the objects are kept in a file of lines, one for each object: the key in hexadecimal
digits, the place, and the time of the last use in seconds.  What a running cache holds is read back
exactly if it is within the limits of the reader, none of which the writer knows.
-/

namespace Fluxheim.Cache

open Ascii List Fallible

def STORAGE_BIN_INDEX_MAGIC_V1 : Bytes := ascii "FLUXHEIM-STORAGE-BIN-INDEX-v1"
def MAX_STORAGE_BIN_INDEX_BYTES : ℕ := 64 * 1024 * 1024
def MAX_STORAGE_BIN_INDEX_ENTRIES : ℕ := 1000000
def MAX_STORAGE_BIN_INDEX_KEY_HEX_BYTES : ℕ := 64 * 1024

/-- The errors of the reader. -/
def invalidIndex (message : String) : IoError := ⟨.invalidData, message⟩

def NANOS : ℤ := 1000000000

/-- The seconds since the epoch, of a time that is not before it. -/
def storageBinSystemTimeUnixSecs (time : ℤ) : Option ℕ :=
  if 0 ≤ time then some (time / NANOS).toNat else none

/-- The time of a number of seconds; a `SystemTime` counts its seconds in 64 bits with a sign. -/
def storageBinUnixSecsSystemTime (secs : ℕ) : ℤ := if secs < 2 ^ 63 then secs * NANOS else 0

variable (entry : StorageBinIndexEntry)

/-- The line of an entry. -/
def indexLine : Bytes :=
  [9].intercalate [hexEncode entry.combinedKey, decimal entry.location.binId,
    decimal entry.location.offset, decimal entry.location.len,
    decimal ((storageBinSystemTimeUnixSecs entry.accessed).getD 0)]

/-- The lines of the entries, if all their places are within a bin. -/
def writeIndexLines (layout : StorageBinLayoutPlan) :
    List StorageBinIndexEntry → Except IoError (List Bytes)
  | [] => .ok []
  | entry :: entries => do
      let _ ← entry.location.validate layout.binSizeBytes
      let rest ← writeIndexLines layout entries
      .ok (indexLine entry :: rest)

/-- The entries in the order of their keys. -/
def sortedEntries (entries : List StorageBinIndexEntry) : List StorageBinIndexEntry :=
  entries.insertionSort fun left right => left.combinedKey ≤ right.combinedKey

variable (layout : StorageBinLayoutPlan)

/-- The file that replaces the old index. -/
def writeStorageBinIndex (entries : List StorageBinIndexEntry) : Except IoError Bytes := do
  let lines ← writeIndexLines layout (sortedEntries entries)
  .ok (terminated (STORAGE_BIN_INDEX_MAGIC_V1 :: lines))

/-- A number of a line. -/
def parseStorageBinIndexU64 (value : Bytes) (field : String) : Except IoError ℕ :=
  Fallible.okOr (parseUnsigned U64_MAX value) (invalidIndex s!"invalid storage-bin index {field}")

/-- The bytes of a key, which must be a text. -/
def storageBinHexDecodeString (value : Bytes) :
    Except IoError { x : Bytes // utf8Valid x = true } :=
  if value.length % 2 ≠ 0 ∨ value.all isHexDigit = false then
    .error (invalidIndex "invalid storage-bin index hex key")
  else
    match hexDecode value with
    | none => .error (invalidIndex "invalid storage-bin index hex key")
    | some bytes =>
      if h : utf8Valid bytes = true then .ok ⟨bytes, h⟩
      else .error (invalidIndex "storage-bin index key is not utf-8")

/-- One line of the index: five fields. -/
def parseIndexLine (line : Bytes) : Except IoError StorageBinIndexEntry :=
  match line.splitOn 9 with
  | [combinedKeyHex, binId, offset, len, accessed] =>
    if MAX_STORAGE_BIN_INDEX_KEY_HEX_BYTES < combinedKeyHex.length then
      .error (invalidIndex "storage-bin index key exceeds the supported length limit")
    else do
      let combinedKey ← storageBinHexDecodeString combinedKeyHex
      let binId ← parseStorageBinIndexU64 binId "bin id"
      let offset ← parseStorageBinIndexU64 offset "offset"
      let len ← parseStorageBinIndexU64 len "length"
      let location ← StorageBinObjectLocation.validate ⟨binId, offset, len⟩ layout.binSizeBytes
      let accessed ← parseStorageBinIndexU64 accessed "accessed"
      .ok ⟨combinedKey.1, location, storageBinUnixSecsSystemTime accessed, combinedKey.2⟩
  | _ => .error (invalidIndex "invalid storage-bin index line")

/-- The entries of the lines, after `count` others. -/
def parseIndexLines (layout : StorageBinLayoutPlan) :
    ℕ → List Bytes → Except IoError (List StorageBinIndexEntry)
  | _, [] => .ok []
  | count, line :: lines =>
    if MAX_STORAGE_BIN_INDEX_ENTRIES ≤ count then
      .error (invalidIndex "storage-bin index exceeds the supported entry limit")
    else do
      let entry ← parseIndexLine layout line
      let entries ← parseIndexLines layout (count + 1) lines
      .ok (entry :: entries)

/-- The entries of an index. -/
def parseStorageBinIndex (contents : Bytes) : Except IoError (List StorageBinIndexEntry) :=
  match lines contents with
  | [] => .error (invalidIndex "invalid storage-bin index magic")
  | magic :: rest =>
    if magic ≠ STORAGE_BIN_INDEX_MAGIC_V1 then
      .error (invalidIndex "invalid storage-bin index magic")
    else parseIndexLines layout 0 rest

/-- The index, of which there need not be a file. -/
def readStorageBinIndex : Option Bytes → Except IoError (List StorageBinIndexEntry)
  | none => .ok []
  | some file =>
    if MAX_STORAGE_BIN_INDEX_BYTES < file.length then
      .error (invalidIndex "storage-bin index exceeds the supported file-size limit")
    else if utf8Valid file = false then
      .error (invalidIndex "stream did not contain valid UTF-8")
    else parseStorageBinIndex layout file

/-- The entries of a cache: every key once, places that have been handed out, times that a
`SystemTime` can hold. -/
structure Held (layout : StorageBinLayoutPlan) (entries : List StorageBinIndexEntry) : Prop where
  admissible : StorageBinFreeMap.Admissible layout entries
  nodup : (entries.map (·.combinedKey)).Nodup
  times : ∀ entry ∈ entries, -2 ^ 63 ≤ entry.accessed / NANOS ∧ entry.accessed / NANOS < 2 ^ 63

/-- The entry with the time of its last use in whole seconds. -/
def StorageBinIndexEntry.inWholeSeconds : StorageBinIndexEntry :=
  { entry with accessed := entry.accessed / NANOS * NANOS }

/-- The entry as it is read back. -/
def StorageBinIndexEntry.readBack : StorageBinIndexEntry :=
  { entry with
    accessed :=
      storageBinUnixSecsSystemTime ((storageBinSystemTimeUnixSecs entry.accessed).getD 0) }

variable {layout entry} {entries : List StorageBinIndexEntry}

theorem unixSecs_lt (h : entry.accessed / NANOS < 2 ^ 63) :
    (storageBinSystemTimeUnixSecs entry.accessed).getD 0 < 2 ^ 63 := by
  rw [storageBinSystemTimeUnixSecs]
  split_ifs with hpos
  · rw [Option.getD_some]
    omega
  · rw [Option.getD_none]
    omega

theorem readBack_eq_iff (h : entry.accessed / NANOS < 2 ^ 63) :
    entry.readBack = entry.inWholeSeconds ↔ 0 ≤ entry.accessed := by
  have hlt := unixSecs_lt h
  rw [StorageBinIndexEntry.readBack, StorageBinIndexEntry.inWholeSeconds,
    StorageBinIndexEntry.mk.injEq, storageBinUnixSecsSystemTime, if_pos hlt,
    storageBinSystemTimeUnixSecs]
  by_cases hpos : 0 ≤ entry.accessed
  · have hsecs : 0 ≤ entry.accessed / NANOS := Int.ediv_nonneg hpos (by decide)
    rw [if_pos hpos, Option.getD_some, Int.toNat_of_nonneg hsecs]
    simp [hpos]
  · rw [NANOS] at *
    omega

theorem fields_isHexDigit (entry : StorageBinIndexEntry) :
    ∀ field ∈ [hexEncode entry.combinedKey, decimal entry.location.binId,
      decimal entry.location.offset, decimal entry.location.len,
      decimal ((storageBinSystemTimeUnixSecs entry.accessed).getD 0)],
      ∀ b ∈ field, isHexDigit b = true := by
  intro field hfield b hb
  simp only [mem_cons, not_mem_nil, or_false] at hfield
  rcases hfield with rfl | rfl | rfl | rfl | rfl
  · exact all_eq_true.1 (hexEncode_all_isHexDigit _) b hb
  all_goals exact isHexDigit_of_isDigit (isDigit_of_mem_decimal hb)

theorem indexLine_bytes {b : UInt8} (h : b ∈ indexLine entry) : b = 9 ∨ isHexDigit b = true := by
  rcases Search.mem_of_mem_intercalate h with h | ⟨field, hfield, hb⟩
  · exact .inl (mem_singleton.1 h)
  · exact .inr (fields_isHexDigit entry field hfield b hb)

theorem indexLine_ascii {b : UInt8} (h : b ∈ indexLine entry) : b < 0x80 ∧ b ≠ 10 ∧ b ≠ 13 := by
  rcases indexLine_bytes h with rfl | h
  · decide
  · exact ⟨(lt_of_isHexDigit h).1, (lt_of_isHexDigit h).2.2⟩

theorem splitOn_indexLine (entry : StorageBinIndexEntry) :
    (indexLine entry).splitOn 9 = [hexEncode entry.combinedKey, decimal entry.location.binId,
      decimal entry.location.offset, decimal entry.location.len,
      decimal ((storageBinSystemTimeUnixSecs entry.accessed).getD 0)] := by
  refine splitOn_intercalate 9 (fun field hfield hmem => ?_) (by simp)
  exact (lt_of_isHexDigit (fields_isHexDigit entry field hfield 9 hmem)).2.1 rfl

theorem parseStorageBinIndexU64_decimal {n : ℕ} (h : n ≤ U64_MAX) (field : String) :
    parseStorageBinIndexU64 (decimal n) field = .ok n := by
  rw [parseStorageBinIndexU64, parseUnsigned_decimal h]
  rfl

theorem storageBinHexDecodeString_hexEncode (entry : StorageBinIndexEntry) :
    storageBinHexDecodeString (hexEncode entry.combinedKey) =
      .ok ⟨entry.combinedKey, entry.combinedKey_utf8⟩ := by
  have hok : ¬ ((hexEncode entry.combinedKey).length % 2 ≠ 0 ∨
      (hexEncode entry.combinedKey).all isHexDigit = false) := by
    rw [hexEncode_all_isHexDigit]
    simp
  rw [storageBinHexDecodeString, if_neg hok, hexDecode_hexEncode]
  exact dif_pos entry.combinedKey_utf8

/-- The numbers of a place that has been handed out are numbers of 64 bits. -/
theorem place_le (h : StorageBinFreeMap.Fits (.new layout) entry.location) :
    entry.location.binId ≤ U64_MAX ∧ entry.location.offset ≤ U64_MAX ∧
      entry.location.len ≤ U64_MAX ∧
      entry.location.validate layout.binSizeBytes = .ok entry.location := by
  obtain ⟨hlen, cap, hcap, hle⟩ := h
  have hmax := StorageBinFreeMap.capacity_le hcap
  have hsize : cap ≤ layout.binSizeBytes := StorageBinFreeMap.capacity_le_binSize hcap
  have hbin := StorageBinFreeMap.succ_le_of_capacity hcap (by omega)
  refine ⟨by omega, by omega, by omega, ?_⟩
  exact StorageBinFreeMap.validate_eq_ok.2 ⟨rfl, hlen, hle.trans hmax, hle.trans hsize⟩

/-- The line of an entry is read back, unless its key is too long. -/
theorem parse_indexLine (hfits : StorageBinFreeMap.Fits (.new layout) entry.location)
    (htime : entry.accessed / NANOS < 2 ^ 63) :
    parseIndexLine layout (indexLine entry) =
      if MAX_STORAGE_BIN_INDEX_KEY_HEX_BYTES < 2 * entry.combinedKey.length then
        .error (invalidIndex "storage-bin index key exceeds the supported length limit")
      else .ok entry.readBack := by
  obtain ⟨hbin, hoff, hlen, hval⟩ := place_le hfits
  have hsecs : (storageBinSystemTimeUnixSecs entry.accessed).getD 0 ≤ U64_MAX :=
    (unixSecs_lt htime).le.trans (by decide)
  rw [parseIndexLine, splitOn_indexLine]
  simp only [length_hexEncode]
  by_cases hlong : MAX_STORAGE_BIN_INDEX_KEY_HEX_BYTES < 2 * entry.combinedKey.length
  · rw [if_pos hlong, if_pos hlong]
  · rw [if_neg hlong, if_neg hlong, storageBinHexDecodeString_hexEncode,
      parseStorageBinIndexU64_decimal hbin, parseStorageBinIndexU64_decimal hoff,
      parseStorageBinIndexU64_decimal hlen, parseStorageBinIndexU64_decimal hsecs]
    simp only [ok_bind, hval]
    rfl

/-- The lines of entries are read back exactly if they and their keys are within the limits. -/
theorem parseIndexLines_map {count : ℕ} {res : List StorageBinIndexEntry}
    (hfits : ∀ entry ∈ entries, StorageBinFreeMap.Fits (.new layout) entry.location)
    (htime : ∀ entry ∈ entries, entry.accessed / NANOS < 2 ^ 63)
    (hcount : count ≤ MAX_STORAGE_BIN_INDEX_ENTRIES) :
    parseIndexLines layout count (entries.map indexLine) = .ok res ↔
      res = entries.map (·.readBack) ∧
        count + entries.length ≤ MAX_STORAGE_BIN_INDEX_ENTRIES ∧
        ∀ entry ∈ entries,
          2 * entry.combinedKey.length ≤ MAX_STORAGE_BIN_INDEX_KEY_HEX_BYTES := by
  induction entries generalizing count res with
  | nil => simp [parseIndexLines, hcount, eq_comm]
  | cons entry entries ih =>
    rw [forall_mem_cons] at hfits htime
    rw [map_cons, parseIndexLines, forall_mem_cons, length_cons]
    by_cases hfull : MAX_STORAGE_BIN_INDEX_ENTRIES ≤ count
    · rw [if_pos hfull]
      simp only [reduceCtorEq, false_iff]
      omega
    rw [if_neg hfull, parse_indexLine hfits.1 htime.1]
    by_cases hlong : MAX_STORAGE_BIN_INDEX_KEY_HEX_BYTES < 2 * entry.combinedKey.length
    · rw [if_pos hlong, error_bind]
      simp only [reduceCtorEq, false_iff]
      omega
    rw [if_neg hlong, ok_bind, bind_eq_ok]
    have hrest : ∀ {rest}, parseIndexLines layout (count + 1) (entries.map indexLine) = .ok rest ↔
        rest = entries.map (·.readBack) ∧
          count + 1 + entries.length ≤ MAX_STORAGE_BIN_INDEX_ENTRIES ∧
          ∀ entry ∈ entries,
            2 * entry.combinedKey.length ≤ MAX_STORAGE_BIN_INDEX_KEY_HEX_BYTES :=
      ih hfits.2 htime.2 (by omega)
    constructor
    · rintro ⟨rest, hparse, hres⟩
      obtain ⟨rfl, hlen, hkeys⟩ := hrest.1 hparse
      exact ⟨(Except.ok.inj hres).symm, by omega, not_lt.1 hlong, hkeys⟩
    · rintro ⟨rfl, hlen, -, hkeys⟩
      exact ⟨_, hrest.2 ⟨rfl, by omega, hkeys⟩, rfl⟩

/-! ### The file -/

/-- The bytes of a line, with its line feed. -/
def indexLineLength (entry : StorageBinIndexEntry) : ℕ :=
  2 * entry.combinedKey.length + (decimal entry.location.binId).length +
    (decimal entry.location.offset).length + (decimal entry.location.len).length +
    (decimal ((storageBinSystemTimeUnixSecs entry.accessed).getD 0)).length + 5

/-- The bytes of the file that is written for entries. -/
def indexLength (entries : List StorageBinIndexEntry) : ℕ :=
  STORAGE_BIN_INDEX_MAGIC_V1.length + 1 + (entries.map indexLineLength).sum

theorem length_indexLine (entry : StorageBinIndexEntry) :
    (indexLine entry).length + 1 = indexLineLength entry := by
  simp only [indexLine, intercalate_cons_cons, intercalate_singleton, length_append,
    length_cons, length_nil, length_hexEncode, indexLineLength]
  omega

theorem sortedEntries_perm (entries : List StorageBinIndexEntry) :
    (sortedEntries entries).Perm entries :=
  entries.perm_insertionSort _

theorem writeIndexLines_eq
    (hfits : ∀ entry ∈ entries, StorageBinFreeMap.Fits (.new layout) entry.location) :
    writeIndexLines layout entries = .ok (entries.map indexLine) := by
  induction entries with
  | nil => rfl
  | cons entry entries ih =>
    rw [forall_mem_cons] at hfits
    rw [writeIndexLines, (place_le hfits.1).2.2.2, ok_bind, ih hfits.2, ok_bind, map_cons]

theorem length_index (entries : List StorageBinIndexEntry) :
    (terminated (STORAGE_BIN_INDEX_MAGIC_V1 :: (sortedEntries entries).map indexLine)).length =
      indexLength entries := by
  have hline : ((sortedEntries entries).map indexLineLength).sum =
      (entries.map indexLineLength).sum := ((sortedEntries_perm entries).map _).sum_eq
  rw [length_terminated, map_cons, sum_cons, map_map, indexLength, ← hline]
  congr 2
  exact map_congr_left fun entry _ => length_indexLine entry

/-- The file is read line by line. -/
theorem read_index (entries : List StorageBinIndexEntry) :
    readStorageBinIndex layout
        (some (terminated (STORAGE_BIN_INDEX_MAGIC_V1 :: (sortedEntries entries).map indexLine))) =
      if MAX_STORAGE_BIN_INDEX_BYTES < indexLength entries then
        .error (invalidIndex "storage-bin index exceeds the supported file-size limit")
      else parseIndexLines layout 0 ((sortedEntries entries).map indexLine) := by
  have hmagic : ∀ b ∈ STORAGE_BIN_INDEX_MAGIC_V1, b < 0x80 ∧ b ≠ 10 ∧ b ≠ 13 := by
    decide +kernel
  have hline : ∀ line ∈ STORAGE_BIN_INDEX_MAGIC_V1 :: (sortedEntries entries).map indexLine,
      ∀ b ∈ line, b < 0x80 ∧ b ≠ 10 ∧ b ≠ 13 := by
    refine forall_mem_cons.2 ⟨hmagic, fun line hline b hb => ?_⟩
    obtain ⟨entry, -, rfl⟩ := mem_map.1 hline
    exact indexLine_ascii hb
  have hutf8 : utf8Valid
      (terminated (STORAGE_BIN_INDEX_MAGIC_V1 :: (sortedEntries entries).map indexLine)) =
      true := by
    refine utf8Valid_of_ascii fun b hb => ?_
    rcases mem_terminated hb with rfl | ⟨line, hmem, hb⟩
    · decide
    · exact (hline line hmem b hb).1
  simp only [readStorageBinIndex, length_index, hutf8, Bool.true_eq_false, if_false]
  rw [parseStorageBinIndex, lines_terminated fun line hmem =>
      ⟨fun hb => (hline line hmem 10 hb).2.1 rfl, fun hb => (hline line hmem 13 hb).2.2 rfl⟩]
  rfl

/-- Writing the index and reading it back gives the entries, in some order and with their times in
whole seconds. -/
def RoundTrip (layout : StorageBinLayoutPlan) (entries : List StorageBinIndexEntry) : Prop :=
  ∃ file read, writeStorageBinIndex layout entries = .ok file ∧
    readStorageBinIndex layout (some file) = .ok read ∧
    read.Perm (entries.map (·.inWholeSeconds))

/-- The limits of the reader, and of the times that it can be given. -/
def WithinLimits (entries : List StorageBinIndexEntry) : Prop :=
  indexLength entries ≤ MAX_STORAGE_BIN_INDEX_BYTES ∧
    entries.length ≤ MAX_STORAGE_BIN_INDEX_ENTRIES ∧
    ∀ entry ∈ entries,
      2 * entry.combinedKey.length ≤ MAX_STORAGE_BIN_INDEX_KEY_HEX_BYTES ∧ 0 ≤ entry.accessed

theorem Held.roundTrip_iff_read (h : Held layout entries) :
    RoundTrip layout entries ↔
      indexLength entries ≤ MAX_STORAGE_BIN_INDEX_BYTES ∧
      entries.length ≤ MAX_STORAGE_BIN_INDEX_ENTRIES ∧
      (∀ entry ∈ entries,
        2 * entry.combinedKey.length ≤ MAX_STORAGE_BIN_INDEX_KEY_HEX_BYTES) ∧
      (entries.map (·.readBack)).Perm (entries.map (·.inWholeSeconds)) := by
  have hperm := sortedEntries_perm entries
  have hmem : ∀ {entry}, entry ∈ sortedEntries entries ↔ entry ∈ entries := hperm.mem_iff
  have hfits : ∀ entry ∈ sortedEntries entries,
      StorageBinFreeMap.Fits (.new layout) entry.location := fun entry hentry =>
    h.admissible.1 entry (hmem.1 hentry)
  have hwrite : writeStorageBinIndex layout entries =
      .ok (terminated (STORAGE_BIN_INDEX_MAGIC_V1 :: (sortedEntries entries).map indexLine)) := by
    rw [writeStorageBinIndex, writeIndexLines_eq hfits, ok_bind]
  have hparse : ∀ {read}, parseIndexLines layout 0 ((sortedEntries entries).map indexLine) =
      .ok read ↔ read = (sortedEntries entries).map (·.readBack) ∧
        0 + (sortedEntries entries).length ≤ MAX_STORAGE_BIN_INDEX_ENTRIES ∧
        ∀ entry ∈ sortedEntries entries,
          2 * entry.combinedKey.length ≤ MAX_STORAGE_BIN_INDEX_KEY_HEX_BYTES :=
    parseIndexLines_map hfits (fun entry hentry => (h.times entry (hmem.1 hentry)).2)
      (Nat.zero_le _)
  rw [hperm.length_eq, zero_add] at hparse
  simp only [hmem] at hparse
  constructor
  · rintro ⟨file, read, hfile, hread, hback⟩
    rw [hwrite] at hfile
    obtain rfl := Except.ok.inj hfile
    rw [read_index] at hread
    split_ifs at hread with hlong
    obtain ⟨rfl, hlen, hkeys⟩ := hparse.1 hread
    exact ⟨not_lt.1 hlong, hlen, hkeys, (hperm.map _).symm.trans hback⟩
  · rintro ⟨hlong, hlen, hkeys, hback⟩
    refine ⟨_, _, hwrite, ?_, (hperm.map _).trans hback⟩
    rw [read_index, if_neg (not_lt.2 hlong)]
    exact hparse.2 ⟨rfl, hlen, hkeys⟩

/-- Entries with different keys are the same up to their order exactly if each is the same. -/
theorem Held.readBack_perm_iff (h : Held layout entries) :
    (entries.map (·.readBack)).Perm (entries.map (·.inWholeSeconds)) ↔
      ∀ entry ∈ entries, 0 ≤ entry.accessed := by
  constructor
  · intro hperm entry hentry
    obtain ⟨other, hother, heq⟩ := mem_map.1 (hperm.mem_iff.1 (mem_map_of_mem hentry))
    have hkey : other.combinedKey = entry.combinedKey := by
      have := congrArg StorageBinIndexEntry.combinedKey heq
      exact this
    obtain rfl := inj_on_of_nodup_map h.nodup hother hentry hkey
    exact (readBack_eq_iff (h.times other hother).2).1 heq.symm
  · intro hpos
    rw [map_congr_left fun entry hentry =>
      (readBack_eq_iff (h.times entry hentry).2).2 (hpos entry hentry)]

/-- **The entries of a running cache are read back from the index exactly if the file has at most
64 MiB, there are at most a million entries, no key has more than 32 KiB, and no object was last
used before the epoch.** -/
theorem index_round_trip_iff (layout : StorageBinLayoutPlan) (entries : List StorageBinIndexEntry)
    (h : Held layout entries) : RoundTrip layout entries ↔ WithinLimits entries := by
  rw [h.roundTrip_iff_read, h.readBack_perm_iff, WithinLimits]
  simp only [forall_and]

/-- The entry of the object with a number, in one bin of a GiB. -/
def numberedEntry (i : ℕ) : StorageBinIndexEntry where
  combinedKey :=
    ascii "fluxheim-image-v1;path:12:/" ++ (decimal (1000000 + i) ++ ascii ".png;")
  location := ⟨0, 512 * i, 512⟩
  accessed := 0
  combinedKey_utf8 := by
    refine utf8Valid_of_ascii fun b hb => ?_
    rw [mem_append, mem_append] at hb
    rcases hb with hb | hb | hb
    · revert b
      decide +kernel
    · exact (lt_of_isHexDigit (isHexDigit_of_isDigit (isDigit_of_mem_decimal hb))).1
    · revert b
      decide +kernel

/-- One bin of a gibibyte. -/
def gibLayout : StorageBinLayoutPlan := ⟨2 ^ 30, 2 ^ 30, by decide, by decide⟩

theorem held_numbered {n : ℕ} (h : 512 * n ≤ 2 ^ 30) :
    Held gibLayout ((List.range n).map numberedEntry) := by
  refine ⟨⟨?_, ?_⟩, ?_, ?_⟩
  · intro entry hentry
    obtain ⟨i, hi, rfl⟩ := mem_map.1 hentry
    rw [mem_range] at hi
    have hcap : (StorageBinFreeMap.new gibLayout).binCapacity 0 = some (2 ^ 30) := by decide
    refine ⟨Nat.succ_pos 511, 2 ^ 30, hcap, ?_⟩
    show 512 * i + 512 ≤ 2 ^ 30
    omega
  · rw [map_map, pairwise_map]
    refine pairwise_lt_range.imp fun {i j} hij _ => Finset.disjoint_left.2 fun x hi hj => ?_
    rw [Span.mem_points] at hi hj
    have hi' : x < 512 * i + 512 := hi.2
    have hj' : 512 * j ≤ x := hj.1
    omega
  · rw [map_map]
    refine (nodup_range).map fun i j hij => ?_
    have hij' := append_cancel_right (append_cancel_left hij)
    have := congrArg decimalValue hij'
    rw [decimalValue_decimal, decimalValue_decimal] at this
    omega
  · intro entry hentry
    obtain ⟨i, -, rfl⟩ := mem_map.1 hentry
    show -2 ^ 63 ≤ (0 : ℤ) / NANOS ∧ (0 : ℤ) / NANOS < 2 ^ 63
    decide

theorem index_round_trip_iff_numbered :
    Held gibLayout ((List.range 2).map numberedEntry) ∧
      RoundTrip gibLayout ((List.range 2).map numberedEntry) := by
  have hheld := @held_numbered 2 (by decide)
  refine ⟨hheld, (index_round_trip_iff gibLayout _ hheld).2 ⟨?_, ?_, ?_⟩⟩
  · decide +kernel
  · decide +kernel
  · decide +kernel

/-- A cache of a million objects and one more, of 512 bytes each: its index is written and is not
read again. -/
theorem numbered_not_read_back :
    Held gibLayout ((List.range 1000001).map numberedEntry) ∧
      ¬ RoundTrip gibLayout ((List.range 1000001).map numberedEntry) := by
  have hheld := @held_numbered 1000001 (by decide)
  refine ⟨hheld, fun hround => ?_⟩
  have hlen := (hheld.roundTrip_iff_read.1 hround).2.1
  rw [length_map, length_range, MAX_STORAGE_BIN_INDEX_ENTRIES] at hlen
  omega

end Fluxheim.Cache
