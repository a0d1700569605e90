import Mathlib.Data.List.Sort
import Fluxheim.Lib.OrderedSet
import Fluxheim.Snapshot.Integrity

/-!
# The snapshot store

A store is a directory with a few state files, and a directory in it with the files of the
snapshots.  What is read of it is a function of these files; the files are regular and private, and
their contents are encoded and decoded by a `Codec`.
-/

namespace Fluxheim.Snapshot

open Ascii Fallible List

def MAX_SNAPSHOT_STORE_ENTRIES : ℕ := 1024
def MAX_CURRENT_SNAPSHOT_POINTER_BYTES : ℕ := 4096
def MAX_SNAPSHOT_FILE_BYTES : ℕ := 16 * 1024 * 1024
def MAX_INTEGRITY_MANIFEST_BYTES : ℕ := 4096
def MAX_GENERATION_STATE_BYTES : ℕ := 4096
def MAX_PRUNE_BOUNDARY_BYTES : ℕ := 1024 * 1024
def MAX_RUNTIME_STATE_BYTES : ℕ := 64 * 1024
def MAX_RUNTIME_DIAGNOSTIC_BYTES : ℕ := 4096

/-- The last generation, with its signature. -/
structure GenerationState where
  generation : ℕ
  keyId : Option Bytes
  hmacSha256 : Option Bytes
  deriving DecidableEq

/-- A snapshot whose parent was removed. -/
structure PruneBoundary where
  childId : Bytes
  removedParentId : Bytes
  deriving DecidableEq

/-- The boundaries, with their signature. -/
structure PersistedPruneBoundaries where
  recordsToml : Bytes
  keyId : Option Bytes
  hmacSha256 : Option Bytes
  deriving DecidableEq

/-- The state, with its signature. -/
structure PersistedRuntimeState where
  stateToml : Bytes
  keyId : Option Bytes
  hmacSha256 : Option Bytes

/-- The encodings of the files. -/
structure TomlCodecs where
  metadata : Codec SnapshotMetadata
  manifest : Codec SnapshotIntegrityManifest
  generation : Codec GenerationState
  pruneBoundaries : Codec PersistedPruneBoundaries
  pruneRecords : Codec (List PruneBoundary)
  persistedRuntimeState : Codec PersistedRuntimeState
  runtimeState : Codec SnapshotRuntimeState

/-- A store, by its key and its encodings. -/
structure SnapshotStore where
  integrity : Option SnapshotIntegrityKey
  toml : TomlCodecs

/-- The files of a directory. -/
abbrev Folder := AList fun _ : Bytes => Bytes

/-- The files, and the process that works on them: its number, the counter that names of new files
are made from, and which of its next operations fail. -/
structure StoreWorld where
  root : Folder
  configs : Folder
  process : ℕ
  sequence : ℕ
  faults : List Bool

namespace StoreWorld

/-- The contents of a file. -/
def read (w : StoreWorld) : StorePath → Option Bytes
  | .root name => w.root.lookup name
  | .configs name => w.configs.lookup name

/-- The contents of a folder with one file changed or removed. -/
def setFile (folder : Folder) (name : Bytes) : Option Bytes → Folder
  | some contents => folder.insert name contents
  | none => folder.erase name

/-- A file is written or removed. -/
def set (w : StoreWorld) (path : StorePath) (contents : Option Bytes) : StoreWorld :=
  match path with
  | .root name => { w with root := setFile w.root name contents }
  | .configs name => { w with configs := setFile w.configs name contents }

theorem lookup_setFile (folder : Folder) (name other : Bytes) (text : Option Bytes) :
    (setFile folder name text).lookup other =
      if other = name then text else folder.lookup other := by
  by_cases h : other = name
  · subst h
    cases text with
    | none => simp [setFile]
    | some raw => simp [setFile]
  · cases text with
    | none => rw [if_neg h, setFile, AList.lookup_erase_ne h]
    | some raw => rw [if_neg h, setFile, AList.lookup_insert_ne h]

@[simp] theorem read_set (w : StoreWorld) (path other : StorePath) (text : Option Bytes) :
    (w.set path text).read other = if other = path then text else w.read other := by
  cases path <;> cases other <;> simp [set, read, lookup_setFile]

end StoreWorld

/-- `read_regular_file_to_string_with_limit`. -/
def readWithLimit (w : StoreWorld) (path : StorePath) (maxBytes : ℕ) : Except SnapshotError Bytes :=
  match w.read path with
  | none => .error (.io .notFound)
  | some raw =>
    if maxBytes < raw.length then .error (.io .invalidData)
    else if !utf8Valid raw then .error (.io .invalidData)
    else .ok raw

/-- `read_optional_regular_file_to_string_with_limit`. -/
def readOptionalWithLimit (w : StoreWorld) (path : StorePath) (maxBytes : ℕ) :
    Except SnapshotError (Option Bytes) :=
  match w.read path with
  | none => .ok none
  | some _ => (readWithLimit w path maxBytes).map some

variable {path : StorePath}

variable {w w' : StoreWorld}

theorem readWithLimit_congr (h : w'.read path = w.read path)
    (maxBytes : ℕ) : readWithLimit w' path maxBytes = readWithLimit w path maxBytes := by
  rw [readWithLimit, h, readWithLimit]

theorem readOptionalWithLimit_congr (h : w'.read path = w.read path) (maxBytes : ℕ) :
    readOptionalWithLimit w' path maxBytes = readOptionalWithLimit w path maxBytes := by
  rw [readOptionalWithLimit, h, readWithLimit_congr h, readOptionalWithLimit]

/-- A file that is read was there. -/
theorem readWithLimit_eq_ok {maxB : ℕ} {raw : Bytes}
    (h : readWithLimit w path maxB = .ok raw) : w.read path = some raw := by
  unfold readWithLimit at h
  cases hread : w.read path with
  | none =>
    rw [hread] at h
    cases h
  | some text =>
    rw [hread] at h
    obtain ⟨-, h⟩ := ite_error_eq_ok.1 h
    obtain ⟨-, h⟩ := ite_error_eq_ok.1 h
    rw [Except.ok.inj h]

theorem readOptionalWithLimit_eq_some {maxB : ℕ}
    {raw : Bytes} (h : readOptionalWithLimit w path maxB = .ok (some raw)) :
    w.read path = some raw ∧ readWithLimit w path maxB = .ok raw := by
  unfold readOptionalWithLimit at h
  cases hread : w.read path with
  | none =>
    rw [hread] at h
    cases h
  | some text =>
    rw [hread] at h
    obtain ⟨raw', hraw, hsome⟩ := map_eq_ok.1 h
    obtain rfl := Option.some.inj hsome
    exact ⟨hread.symm.trans (readWithLimit_eq_ok hraw), hraw⟩

/-- Whether a signature was checked. -/
inductive SnapshotIntegrityStatus where
  | authenticated
  | unverified
  deriving DecidableEq

/-- A snapshot as it is loaded. -/
structure ConfigSnapshot where
  id : Bytes
  configPath : StorePath
  metadataPath : StorePath
  metadata : SnapshotMetadata
  integrity : SnapshotIntegrityStatus

section Load

variable (store : SnapshotStore) (w : StoreWorld)

/-- The snapshot against its manifest, if there is a key. -/
def verifyIntegrityBytes (id rawConfig : Bytes) (rawMetadata : Option Bytes) :
    Except SnapshotError SnapshotIntegrityStatus :=
  match store.integrity with
  | none => .ok .unverified
  | some key => do
      let rawMetadata ← okOr rawMetadata (.integrityManifestMissing id)
      let rawManifest? ← readOptionalWithLimit w (integrityPath id) MAX_INTEGRITY_MANIFEST_BYTES
      let rawManifest ← okOr rawManifest? (.integrityManifestMissing id)
      let manifest ← okOr (store.toml.manifest.decode rawManifest) .decode
      let metadata ← okOr (store.toml.metadata.decode rawMetadata) .decode
      validateSnapshotMetadata metadata id
      key.verify id rawConfig rawMetadata metadata.generation manifest
      pure .authenticated

/-- The configuration is read only where there is a key. -/
def verifyIntegrity (id : Bytes) (rawMetadata : Option Bytes) :
    Except SnapshotError SnapshotIntegrityStatus :=
  match store.integrity with
  | none => .ok .unverified
  | some _ => do
      let _ ← okOr rawMetadata (.integrityManifestMissing id)
      let rawConfig ← readWithLimit w (configPath id) MAX_SNAPSHOT_FILE_BYTES
      verifyIntegrityBytes store w id rawConfig rawMetadata

variable (id : Bytes)

/-- The metadata of a snapshot that has none. -/
def defaultMetadata : SnapshotMetadata := ⟨id, 0, none, 0, none⟩

/-- The snapshot of its metadata, which may be missing. -/
def snapshotFromMetadata (rawMetadata : Option Bytes)
    (integrity : SnapshotIntegrityStatus) : Except SnapshotError ConfigSnapshot := do
  let metadata ←
    match rawMetadata with
    | none => pure (defaultMetadata id)
    | some raw => do
        let metadata ← okOr (store.toml.metadata.decode raw) .decode
        validateSnapshotMetadata metadata id
        pure metadata
  pure ⟨id, configPath id, metadataPath id, metadata, integrity⟩

/-- A snapshot. -/
def loadSnapshot : Except SnapshotError ConfigSnapshot := do
  validateSnapshotId id
  if w.read (configPath id) = none then .error (.snapshotNotFound id)
  else do
    let rawMetadata ← readOptionalWithLimit w (metadataPath id) MAX_SNAPSHOT_METADATA_BYTES
    let integrity ← verifyIntegrity store w id rawMetadata
    snapshotFromMetadata store id rawMetadata integrity

/-- A snapshot, and its configuration. -/
def loadSnapshotConfigBytes : Except SnapshotError (ConfigSnapshot × Bytes) := do
  validateSnapshotId id
  if w.read (configPath id) = none then .error (.snapshotNotFound id)
  else do
    let rawConfig ← readWithLimit w (configPath id) MAX_SNAPSHOT_FILE_BYTES
    let rawMetadata ← readOptionalWithLimit w (metadataPath id) MAX_SNAPSHOT_METADATA_BYTES
    let integrity ← verifyIntegrityBytes store w id rawConfig rawMetadata
    let snapshot ← snapshotFromMetadata store id rawMetadata integrity
    pure (snapshot, rawConfig)

/-- What a listing finds. -/
inductive SnapshotEntryStatus where
  | healthy
  | unverified
  | corrupt
  deriving DecidableEq

/-- An entry of a listing. -/
structure SnapshotListEntry where
  id : Bytes
  snapshot : Option ConfigSnapshot
  status : SnapshotEntryStatus

/-- `Path::file_stem` and `Path::extension` of a name. -/
def stemAndExtension (name : Bytes) : Bytes × Option Bytes :=
  if name = [46, 46] then (name, none)
  else
    match Search.splitOnce 46 name.reverse with
    | none => (name, none)
    | some (extension, stem) =>
      if stem = [] then (name, none) else (stem.reverse, some extension.reverse)

/-- The name of a snapshot's configuration, without its extension; the other files of a snapshot are
passed over. -/
def snapshotStem (name : Bytes) : Option Bytes :=
  match stemAndExtension name with
  | (stem, some extension) =>
    if extension ≠ ascii "toml" then none
    else if (ascii ".meta").isSuffixOf stem || (ascii ".integrity").isSuffixOf stem then none
    else some stem
  | (_, none) => none

/-- The entry of one snapshot. -/
def listEntry (stem : Bytes) : SnapshotListEntry :=
  if !isSnapshotId stem then ⟨safeSnapshotLabel stem, none, .corrupt⟩
  else
    match loadSnapshot store w stem with
    | .ok snapshot =>
      ⟨safeSnapshotLabel stem, some snapshot,
        match snapshot.integrity with
        | .authenticated => .healthy
        | .unverified => .unverified⟩
    | .error _ => ⟨safeSnapshotLabel stem, none, .corrupt⟩

/-- The loop of `list_entries` over the names of the directory; after the last entry there is room
for, one that is corrupt stands for all others. -/
def listLoop : List Bytes → List SnapshotListEntry → List SnapshotListEntry
  | [], entries => entries
  | name :: names, entries =>
    match snapshotStem name with
    | none => listLoop names entries
    | some stem =>
      if MAX_SNAPSHOT_STORE_ENTRIES ≤ entries.length then
        entries ++ [⟨safeSnapshotLabel stem, none, .corrupt⟩]
      else listLoop names (entries ++ [listEntry store w stem])

open scoped ByteOrder in
/-- The snapshots in the order of their ids. -/
def listEntries : List SnapshotListEntry :=
  (listLoop store w w.configs.keys []).insertionSort fun a b => a.id ≤ b.id

/-- `list`. -/
def listSnapshots : List ConfigSnapshot := (listEntries store w).filterMap (·.snapshot)

/-! ### State files -/

/-- An empty pointer is none. -/
def currentId : Except SnapshotError (Option Bytes) :=
  if w.read currentPath = none then .ok none
  else do
    let raw ← readWithLimit w currentPath MAX_CURRENT_SNAPSHOT_POINTER_BYTES
    let id := trimText raw
    if id = [] then pure none
    else do
      validateSnapshotId id
      pure (some id)

/-- A text that is not too long, without control characters. -/
def validateRuntimeDiagnostic (value : Bytes) : Except SnapshotError Unit :=
  if MAX_RUNTIME_DIAGNOSTIC_BYTES < value.length || hasControl value then
    .error (.io .invalidInput)
  else .ok ()

/-- The diagnostics of a validation that is under way. -/
def PendingValidation.diagnostics (pending : PendingValidation) : List Bytes :=
  pending.impact :: pending.lastRollbackFailure.toList

/-- The ids and texts of the state. -/
def validateRuntimeState (state : SnapshotRuntimeState) : Except SnapshotError Unit := do
  state.snapshots.forM validateSnapshotId
  (state.pendingValidation.toList.flatMap (·.diagnostics)).forM validateRuntimeDiagnostic

/-- The state of the self-healing. -/
def loadRuntimeState : Except SnapshotError (Option SnapshotRuntimeState) := do
  let _ ← currentId w
  let raw? ← readOptionalWithLimit w runtimeStatePath MAX_RUNTIME_STATE_BYTES
  match raw? with
  | none => pure none
  | some raw => do
      let persisted ← okOr (store.toml.persistedRuntimeState.decode raw) .decode
      if MAX_RUNTIME_STATE_BYTES < persisted.stateToml.length then .error (.io .invalidInput)
      else if !opensState store.integrity RECOVERY_MAC_LABEL persisted.stateToml
          (persisted.keyId, persisted.hmacSha256) then .error .runtimeStateIntegrityFailed
      else do
        let state ← okOr (store.toml.runtimeState.decode persisted.stateToml) .decode
        validateRuntimeState state
        pure (some state)

/-- The boundaries of a file.  They are a set: their order is that of the file. -/
def decodePruneBoundaries (raw : Bytes) : Except SnapshotError (List PruneBoundary) := do
  let persisted ← okOr (store.toml.pruneBoundaries.decode raw) .pruneBoundaryInvalid
  if !opensState store.integrity PRUNE_BOUNDARY_MAC_LABEL persisted.recordsToml
      (persisted.keyId, persisted.hmacSha256) then .error .pruneBoundaryInvalid
  else do
    let records ← okOr (store.toml.pruneRecords.decode persisted.recordsToml) .pruneBoundaryInvalid
    records.forM fun record => do
      validateSnapshotId record.childId
      validateSnapshotId record.removedParentId
    pure records

/-- The boundaries. -/
def loadPruneBoundaries : Except SnapshotError (List PruneBoundary) := do
  let raw? ← readOptionalWithLimit w pruneBoundaryPath MAX_PRUNE_BOUNDARY_BYTES
  match raw? with
  | none => pure []
  | some raw => decodePruneBoundaries store raw

/-- The parent of the current snapshot. -/
def previousSnapshotId : Except SnapshotError Bytes := do
  let current? ← currentId w
  let current ← okOr current? .currentMissing
  let snapshot ← loadSnapshot store w current
  okOr snapshot.metadata.parentId (.noPreviousSnapshot current)

/-- `verified_config_snapshot`, with the reader of configurations. -/
def verifiedConfigSnapshot {C : Type} (loadConfig : Bytes → Option C) (id : Bytes) :
    Except SnapshotError (ConfigSnapshot × C) := do
  let (snapshot, rawConfig) ← loadSnapshotConfigBytes store w id
  let config ← okOr (loadConfig rawConfig) .config
  pure (snapshot, config)

/-- The snapshot that a rollback would restore. -/
def rollbackCandidate {C : Type} (loadConfig : Bytes → Option C) (target : Option Bytes) :
    Except SnapshotError (ConfigSnapshot × C) := do
  let id ←
    match target with
    | some id => do
        validateSnapshotId id
        pure id
    | none => previousSnapshotId store w
  verifiedConfigSnapshot store w loadConfig id

end Load

section Congr

variable (store : SnapshotStore) {w w' : StoreWorld} {id : Bytes}

theorem verifyIntegrityBytes_congr (h : w'.read (integrityPath id) = w.read (integrityPath id))
    (rawC : Bytes) (rawMetadata : Option Bytes) :
    verifyIntegrityBytes store w' id rawC rawMetadata =
      verifyIntegrityBytes store w id rawC rawMetadata := by
  unfold verifyIntegrityBytes
  rw [readOptionalWithLimit_congr h]

theorem loadSnapshot_congr (h : ∀ path ∈ snapshotPaths id, w'.read path = w.read path) :
    loadSnapshot store w' id = loadSnapshot store w id := by
  have hconfig := h (configPath id) (by simp [snapshotPaths])
  have hmeta := h (metadataPath id) (by simp [snapshotPaths])
  have hint := h (integrityPath id) (by simp [snapshotPaths])
  unfold loadSnapshot verifyIntegrity
  rw [hconfig, readOptionalWithLimit_congr hmeta, readWithLimit_congr hconfig]
  simp only [verifyIntegrityBytes_congr store hint]

theorem loadSnapshotConfigBytes_congr (h : ∀ path ∈ snapshotPaths id, w'.read path = w.read path) :
    loadSnapshotConfigBytes store w' id = loadSnapshotConfigBytes store w id := by
  have hconfig := h (configPath id) (by simp [snapshotPaths])
  have hmeta := h (metadataPath id) (by simp [snapshotPaths])
  have hint := h (integrityPath id) (by simp [snapshotPaths])
  unfold loadSnapshotConfigBytes
  rw [hconfig, readOptionalWithLimit_congr hmeta, readWithLimit_congr hconfig]
  simp only [verifyIntegrityBytes_congr store hint]

theorem currentId_congr (h : w'.read currentPath = w.read currentPath) :
    currentId w' = currentId w := by
  unfold currentId
  rw [h, readWithLimit_congr h]

theorem loadPruneBoundaries_congr (h : w'.read pruneBoundaryPath = w.read pruneBoundaryPath) :
    loadPruneBoundaries store w' = loadPruneBoundaries store w := by
  unfold loadPruneBoundaries
  rw [readOptionalWithLimit_congr h]

end Congr

section Loaded

variable {store : SnapshotStore} {w : StoreWorld} {id : Bytes} {snapshot : ConfigSnapshot}

theorem validateSnapshotId_eq_ok : validateSnapshotId id = .ok () ↔ isSnapshotId id = true := by
  unfold validateSnapshotId
  split_ifs with h
  · simp [h]
  · simp [h]

variable {parent stem name : Bytes}

theorem isSnapshotId_of_parent {metadata : SnapshotMetadata}
    (h : validateSnapshotMetadata metadata id = .ok ())
    (hparent : metadata.parentId = some parent) :
    isSnapshotId parent = true := by
  obtain ⟨⟨⟩, -, h⟩ := bind_eq_ok.1 h
  obtain ⟨-, h⟩ := ite_error_eq_ok.1 h
  rw [hparent] at h
  obtain ⟨⟨⟩, hval, -⟩ := bind_eq_ok.1 h
  exact validateSnapshotId_eq_ok.1 hval

/-- What a snapshot that loads was made of. -/
structure Loads (store : SnapshotStore) (w : StoreWorld) (id : Bytes) (snapshot : ConfigSnapshot) :
    Prop where
  valid : isSnapshotId id = true
  config : w.read (configPath id) ≠ none
  id_eq : snapshot.id = id
  configPath_eq : snapshot.configPath = configPath id
  metadataPath_eq : snapshot.metadataPath = metadataPath id
  metadata : (w.read (metadataPath id) = none ∧ snapshot.metadata = defaultMetadata id) ∨
    ∃ raw, w.read (metadataPath id) = some raw ∧
      readWithLimit w (metadataPath id) MAX_SNAPSHOT_METADATA_BYTES = .ok raw ∧
      store.toml.metadata.decode raw = some snapshot.metadata ∧
      validateSnapshotMetadata snapshot.metadata id = .ok ()

theorem loads_of_loadSnapshot (h : loadSnapshot store w id = .ok snapshot) :
    Loads store w id snapshot := by
  obtain ⟨⟨⟩, hval, h⟩ := bind_eq_ok.1 h
  obtain ⟨hconfig, h⟩ := ite_error_eq_ok.1 h
  obtain ⟨rawMd, hread, h⟩ := bind_eq_ok.1 h
  obtain ⟨integrity, -, h⟩ := bind_eq_ok.1 h
  cases rawMd with
  | none =>
    have hnone : w.read (metadataPath id) = none := by
      cases hfile : w.read (metadataPath id) with
      | none => rfl
      | some raw =>
        rw [readOptionalWithLimit, hfile] at hread
        obtain ⟨text, -, hsome⟩ := map_eq_ok.1 hread
        cases hsome
    obtain rfl := Except.ok.inj h
    exact ⟨validateSnapshotId_eq_ok.1 hval, hconfig, rfl, rfl, rfl, .inl ⟨hnone, rfl⟩⟩
  | some raw =>
    obtain ⟨hraw, hlimit⟩ := readOptionalWithLimit_eq_some hread
    obtain ⟨metadata, hdec, h⟩ := bind_eq_ok.1 h
    obtain ⟨⟨⟩, hmeta, h⟩ := bind_eq_ok.1 h
    obtain rfl := Except.ok.inj h
    exact ⟨validateSnapshotId_eq_ok.1 hval, hconfig, rfl, rfl, rfl,
      .inr ⟨raw, hraw, hlimit, okOr_eq_ok.1 hdec, hmeta⟩⟩

/-- The metadata in the file of a snapshot are its own. -/
theorem Loads.metadata_eq (h : Loads store w id snapshot) {raw : Bytes}
    {metadata : SnapshotMetadata} (hread : w.read (metadataPath id) = some raw)
    (hdec : store.toml.metadata.decode raw = some metadata) : metadata = snapshot.metadata := by
  obtain ⟨hnone, -⟩ | ⟨raw', hraw, -, hsnap, -⟩ := h.metadata
  · rw [hread] at hnone
    cases hnone
  · obtain rfl := Option.some.inj (hread.symm.trans hraw)
    exact Option.some.inj (hdec.symm.trans hsnap)

/-- The parent of a snapshot has an id of a snapshot. -/
theorem Loads.parent_valid (h : Loads store w id snapshot)
    (hparent : snapshot.metadata.parentId = some parent) : isSnapshotId parent = true := by
  obtain ⟨-, hmeta⟩ | ⟨raw, -, -, -, hmeta⟩ := h.metadata
  · rw [hmeta] at hparent
    cases hparent
  · exact isSnapshotId_of_parent hmeta hparent

/-! ### The list -/

/-- No entry of the list is corrupt. -/
def Uncorrupted (store : SnapshotStore) (w : StoreWorld) : Prop :=
  ∀ entry ∈ listEntries store w, entry.status ≠ .corrupt

theorem splitOnce_reverse_append {a : UInt8} {ext : Bytes} (h : a ∉ ext) :
    Search.splitOnce a (stem ++ a :: ext).reverse =
      some (ext.reverse, stem.reverse) := by
  rw [reverse_append, reverse_cons, append_assoc]
  exact Search.splitOnce_eq_some_iff.2 ⟨rfl, by simpa using h⟩

theorem snapshotStem_configName (h : isSnapshotId id = true) :
    snapshotStem (id ++ ascii ".toml") = some id := by
  have hne : id ≠ [] := by
    rintro rfl
    cases h
  have hdots : id ++ ascii ".toml" ≠ [46, 46] := by
    intro heq
    have hlast := congrArg getLast? heq
    rw [getLast?_append] at hlast
    cases hlast
  have hpart : stemAndExtension (id ++ ascii ".toml") = (id, some (ascii "toml")) := by
    have hsplit := @splitOnce_reverse_append id 46 (ascii "toml") (by decide)
    unfold stemAndExtension
    rw [if_neg hdots, show ascii ".toml" = 46 :: ascii "toml" from rfl, hsplit]
    dsimp only
    rw [if_neg (by simpa using hne), reverse_reverse, reverse_reverse]
  have hsuf : ∀ suffix : Bytes, 46 ∈ suffix → suffix.isSuffixOf id = false := by
    intro suffix hdot
    rw [Bool.eq_false_iff]
    intro hend
    exact dot_not_mem_of_isSnapshotId h
      ((isSuffixOf_iff_suffix.1 hend).subset hdot)
  unfold snapshotStem
  rw [hpart]
  dsimp only
  rw [hsuf _ (by decide), hsuf _ (by decide)]
  rfl

/-- An entry that is not corrupt has a snapshot. -/
theorem listEntry_snapshot (h : (listEntry store w stem).status ≠ .corrupt) :
    ∃ snapshot, loadSnapshot store w stem = .ok snapshot ∧
      (listEntry store w stem).snapshot = some snapshot := by
  unfold listEntry at h ⊢
  split_ifs at h ⊢ with hval
  · exact absurd rfl h
  · cases hload : loadSnapshot store w stem with
    | ok snapshot => exact ⟨snapshot, rfl, rfl⟩
    | error e =>
      rw [hload] at h
      exact absurd rfl h

theorem loadSnapshot_of_listEntry (h : (listEntry store w stem).snapshot = some snapshot) :
    loadSnapshot store w stem = .ok snapshot := by
  unfold listEntry at h
  split_ifs at h with hval
  cases hload : loadSnapshot store w stem with
  | ok loaded =>
    rw [hload] at h
    exact congrArg Except.ok (Option.some.inj h)
  | error e =>
    rw [hload] at h
    cases h

/-- An entry of the loop was there before, or is that of one of the names, or is the corrupt one at
the end. -/
theorem mem_listLoop {ns : List Bytes} {es : List SnapshotListEntry}
    {e : SnapshotListEntry} (h : e ∈ listLoop store w ns es) :
    e ∈ es ∨ (∃ stem, e = listEntry store w stem) ∨ e.snapshot = none := by
  induction ns generalizing es with
  | nil => exact .inl h
  | cons name ns ih =>
    rw [listLoop] at h
    split at h
    · exact ih h
    · rename_i stem hstem
      split_ifs at h with hfull
      · rcases mem_append.1 h with h | h
        · exact .inl h
        · exact .inr (.inr (by rw [mem_singleton.1 h]))
      · rcases ih h with h | h
        · rcases mem_append.1 h with h | h
          · exact .inl h
          · exact .inr (.inl ⟨stem, mem_singleton.1 h⟩)
        · exact .inr h

theorem subset_listLoop (ns : List Bytes) (entries : List SnapshotListEntry) :
    entries ⊆ listLoop store w ns entries := by
  induction ns generalizing entries with
  | nil => exact Subset.refl _
  | cons name ns ih =>
    rw [listLoop]
    split
    · exact ih entries
    · split_ifs with hfull
      · exact subset_append_left _ _
      · exact Subset.trans (subset_append_left _ _) (ih _)

/-- If no entry is corrupt, the loop comes to the end of the names. -/
theorem listEntry_mem_listLoop {ns : List Bytes} {entries : List SnapshotListEntry}
    (h : ∀ e ∈ listLoop store w ns entries, e.status ≠ .corrupt)
    (hname : name ∈ ns) (hstem : snapshotStem name = some stem) :
    listEntry store w stem ∈ listLoop store w ns entries := by
  induction ns generalizing entries with
  | nil => cases hname
  | cons first ns ih =>
    rw [listLoop] at h ⊢
    cases hfirst : snapshotStem first with
    | none =>
      rw [hfirst] at h
      have hne : name ≠ first := by
        rintro rfl
        rw [hfirst] at hstem
        cases hstem
      exact ih h ((mem_cons.1 hname).resolve_left hne)
    | some firstStem =>
      rw [hfirst] at h
      split_ifs at h ⊢ with hfull
      · exact absurd rfl (h _ (mem_append_right _ (mem_singleton_self _)))
      · rcases mem_cons.1 hname with rfl | hname
        · obtain rfl := Option.some.inj (hfirst.symm.trans hstem)
          exact subset_listLoop _ _ (mem_append_right _ (mem_singleton_self _))
        · exact ih h hname

theorem mem_listEntries {e : SnapshotListEntry} :
    e ∈ listEntries store w ↔ e ∈ listLoop store w w.configs.keys [] :=
  mem_insertionSort _

/-- The list is of snapshots that load. -/
theorem loadSnapshot_of_mem_listSnapshots (h : snapshot ∈ listSnapshots store w) :
    loadSnapshot store w snapshot.id = .ok snapshot := by
  obtain ⟨e, hentry, hsnap⟩ := mem_filterMap.1 h
  rcases mem_listLoop (mem_listEntries.1 hentry) with h | ⟨stem, rfl⟩ | h
  · cases h
  · have hload := loadSnapshot_of_listEntry hsnap
    rwa [(loads_of_loadSnapshot hload).id_eq]
  · rw [h] at hsnap
    cases hsnap

theorem mem_keys_of_read (h : w.read (.configs name) ≠ none) : name ∈ w.configs.keys := by
  exact AList.lookup_isSome.1 (Option.isSome_iff_ne_none.2 h)

/-- If none is corrupt, every snapshot that is there is in the list. -/
theorem mem_listSnapshots (hsound : Uncorrupted store w) (hval : isSnapshotId id = true)
    (hconfig : w.read (configPath id) ≠ none) :
    ∃ snapshot ∈ listSnapshots store w, loadSnapshot store w id = .ok snapshot := by
  have hmem := listEntry_mem_listLoop (fun e hentry =>
    hsound e (mem_listEntries.2 hentry)) (mem_keys_of_read hconfig)
    (snapshotStem_configName hval)
  obtain ⟨snapshot, hload, hsnap⟩ :=
    listEntry_snapshot (hsound _ (mem_listEntries.2 hmem))
  exact ⟨snapshot, mem_filterMap.2 ⟨_, mem_listEntries.2 hmem, hsnap⟩, hload⟩

end Loaded

end Fluxheim.Snapshot
