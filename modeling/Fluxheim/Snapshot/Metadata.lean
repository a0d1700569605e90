import Fluxheim.Lib.PathText
import Fluxheim.Lib.WhiteSpace

/-!
# Snapshots and their metadata

The store keeps configurations under ids that are safe as file names, each with a record of when it
was made, of the snapshot before it, and of its generation.
-/

namespace Fluxheim.Snapshot

open Ascii List

def MAX_SNAPSHOT_ID_BYTES : ℕ := 128
def MAX_SNAPSHOT_MESSAGE_BYTES : ℕ := 4096
def MAX_SNAPSHOT_METADATA_BYTES : ℕ := 16 * 1024

/-- The name of a file in the root of the store, or in its directory of configurations. -/
inductive StorePath where
  | root (name : Bytes)
  | configs (name : Bytes)
  deriving DecidableEq

namespace StorePath

/-- The name in its directory. -/
def name : StorePath → Bytes
  | root name => name
  | configs name => name

/-- Another name in the same directory. -/
def sibling (path : StorePath) (name : Bytes) : StorePath :=
  match path with
  | root _ => root name
  | configs _ => configs name

@[simp] theorem name_sibling (path : StorePath) (name : Bytes) :
    (path.sibling name).name = name := by
  cases path <;> rfl

end StorePath

/-- Names the current snapshot. -/
def currentPath : StorePath := .root (ascii "current")
/-- Keeps the last generation. -/
def generationPath : StorePath := .root (ascii "generation.toml")
/-- Keeps the state of the self-healing. -/
def runtimeStatePath : StorePath := .root (ascii "self-healing.toml")
/-- Keeps the boundaries. -/
def pruneBoundaryPath : StorePath := .root (ascii "prune-boundaries.toml")

variable (id : Bytes)

/-- The configuration. -/
def configPath : StorePath := .configs (id ++ ascii ".toml")
/-- The metadata. -/
def metadataPath : StorePath := .configs (id ++ ascii ".meta.toml")
/-- The manifest. -/
def integrityPath : StorePath := .configs (id ++ ascii ".integrity.toml")

/-- The kinds of errors of files. -/
inductive IoErrorKind where
  | notFound
  | alreadyExists
  | invalidData
  | invalidInput
  | storageFull
  | other
  deriving DecidableEq

/-- The errors of the store. -/
inductive SnapshotError where
  | io (kind : IoErrorKind)
  | encode
  | decode
  | config
  | currentMissing
  | noPreviousSnapshot (current : Bytes)
  | invalidSnapshotId (id : Bytes)
  | snapshotNotFound (id : Bytes)
  | invalidSnapshotMessage (maxBytes : ℕ)
  | invalidSystemClock
  | integrityManifestMissing (id : Bytes)
  | integrityVerificationFailed (id : Bytes)
  | invalidPrunePolicy
  | runtimeStateIntegrityFailed
  | publishedButNotDurable (path : StorePath)
  | snapshotPublishedButCurrentUpdateFailed (id : Bytes)
  | generationExhausted
  | generationStateInvalid
  | pruneBoundaryInvalid
  | cryptoProvider (message : String)
  deriving DecidableEq

/-- The record of a snapshot. -/
structure SnapshotMetadata where
  id : Bytes
  createdUnixSecs : ℕ
  parentId : Option Bytes
  generation : ℕ
  message : Option Bytes
  deriving DecidableEq

/-- The characters of an id. -/
def isSnapshotIdByte (b : UInt8) : Bool := isAlphanumeric b || b == 45 || b == 95

/-- `validate_snapshot_id` accepts the id. -/
def isSnapshotId (id : Bytes) : Bool :=
  !(id == []) && id.length ≤ MAX_SNAPSHOT_ID_BYTES && id.all isSnapshotIdByte

/-- An id that is safe as a file name. -/
def validateSnapshotId : Except SnapshotError Unit :=
  if isSnapshotId id then .ok () else .error (.invalidSnapshotId id)

/-- The numbers of the characters of a text; `need` more bytes belong to the one that `code`
begins. -/
def codePoints : ℕ → ℕ → Bytes → List ℕ
  | _, _, [] => []
  | 0, _, b :: x =>
    if b < 0x80 then b.toNat :: codePoints 0 0 x
    else if b < 0xe0 then codePoints 1 (b.toNat % 32) x
    else if b < 0xf0 then codePoints 2 (b.toNat % 16) x
    else codePoints 3 (b.toNat % 8) x
  | 1, code, b :: x => (code * 64 + b.toNat % 64) :: codePoints 0 0 x
  | need + 2, code, b :: x => codePoints (need + 1) (code * 64 + b.toNat % 64) x

/-- `char::escape_default`, of a character by its number. -/
def escapeDefault (code : ℕ) : Bytes :=
  if code = 9 then [92, 116]
  else if code = 13 then [92, 114]
  else if code = 10 then [92, 110]
  else if code = 39 ∨ code = 34 ∨ code = 92 then [92, UInt8.ofNat code]
  else if 32 ≤ code ∧ code < 127 then [UInt8.ofNat code]
  else [92, 117, 123] ++ (Nat.toDigits 16 code).map (fun c => UInt8.ofNat c.toNat) ++ [125]

/-- A file name as it is shown. -/
def safeSnapshotLabel (value : Bytes) : Bytes :=
  ((codePoints 0 0 value).flatMap escapeDefault).take 256

/-- A tab and an accented letter. -/
example : safeSnapshotLabel [97, 9, 0xc3, 0xa9] =
    [97, 92, 116, 92, 117, 123, 101, 57, 125] := by decide +kernel

/-- An empty message is none. -/
def validSnapshotMessage (message : Bytes) : Except SnapshotError (Option Bytes) :=
  let message := trimText message
  if message = [] then .ok none
  else if MAX_SNAPSHOT_MESSAGE_BYTES < message.length || hasControl message then
    .error (.invalidSnapshotMessage MAX_SNAPSHOT_MESSAGE_BYTES)
  else .ok (some message)

/-- The message, if there is one. -/
def snapshotMessage : Option Bytes → Except SnapshotError (Option Bytes)
  | some message => validSnapshotMessage message
  | none => .ok none

/-- The metadata are those of the id, which is not its own parent. -/
def validateSnapshotMetadata (metadata : SnapshotMetadata) (expectedId : Bytes) :
    Except SnapshotError Unit := do
  validateSnapshotId metadata.id
  if metadata.id ≠ expectedId then .error (.invalidSnapshotId metadata.id)
  else do
    match metadata.parentId with
    | none => pure ()
    | some parentId => do
        validateSnapshotId parentId
        if parentId = expectedId then .error (.invalidSnapshotId parentId) else pure ()
    match metadata.message with
    | none => pure ()
    | some message => do
        let _ ← validSnapshotMessage message
        pure ()

variable {id}

theorem dot_not_mem_of_isSnapshotId (h : isSnapshotId id = true) : 46 ∉ id := by
  intro hmem
  simp only [isSnapshotId, Bool.and_eq_true, all_eq_true] at h
  exact absurd (h.2 46 hmem) (by decide)

variable {id' : Bytes}

theorem configPath_injective (h : configPath id = configPath id') : id = id' :=
  append_cancel_right (StorePath.configs.inj h)

theorem metadataPath_injective (h : metadataPath id = metadataPath id') : id = id' :=
  append_cancel_right (StorePath.configs.inj h)

theorem integrityPath_injective (h : integrityPath id = integrityPath id') : id = id' :=
  append_cancel_right (StorePath.configs.inj h)

/-- A name without a dot, so that the other files have other names. -/
theorem configPath_ne_append (h : 46 ∉ id) (id' : Bytes) {mid : Bytes}
    (hmid : 46 ∈ mid) : configPath id ≠ .configs (id' ++ (mid ++ ascii ".toml")) := by
  intro heq
  have hname := StorePath.configs.inj heq
  rw [← append_assoc] at hname
  apply h
  rw [append_cancel_right hname]
  exact mem_append_right _ hmid

theorem configPath_ne_metadataPath (h : 46 ∉ id) (id' : Bytes) : configPath id ≠ metadataPath id' :=
  configPath_ne_append h id' (show 46 ∈ ascii ".meta" by decide)

theorem configPath_ne_integrityPath (h : 46 ∉ id) (id' : Bytes) :
    configPath id ≠ integrityPath id' :=
  configPath_ne_append h id' (show 46 ∈ ascii ".integrity" by decide)

theorem metadataPath_ne_integrityPath (id id' : Bytes) : metadataPath id ≠ integrityPath id' := by
  intro heq
  have hname : (id ++ ascii ".met") ++ ascii "a.toml" =
      (id' ++ ascii ".integrit") ++ ascii "y.toml" := by
    rw [append_assoc, append_assoc]
    exact StorePath.configs.inj heq
  have hend := append_inj_right' hname (by decide)
  revert hend
  decide

/-- The three files of a snapshot. -/
def snapshotPaths (id : Bytes) : List StorePath :=
  [configPath id, metadataPath id, integrityPath id]

/-- Snapshots have no file in common. -/
theorem snapshotPaths_disjoint (hid : isSnapshotId id = true)
    (hid' : isSnapshotId id' = true) (hne : id ≠ id') : ∀ path ∈ snapshotPaths id,
    path ∉ snapshotPaths id' := by
  intro path hpath hpath'
  have hdot := dot_not_mem_of_isSnapshotId hid
  have hdot' := dot_not_mem_of_isSnapshotId hid'
  simp only [snapshotPaths, mem_cons, not_mem_nil, or_false] at hpath hpath'
  rcases hpath with rfl | rfl | rfl <;> rcases hpath' with h | h | h
  · exact hne (configPath_injective h)
  · exact configPath_ne_metadataPath hdot _ h
  · exact configPath_ne_integrityPath hdot _ h
  · exact configPath_ne_metadataPath hdot' _ h.symm
  · exact hne (metadataPath_injective h)
  · exact metadataPath_ne_integrityPath _ _ h
  · exact configPath_ne_integrityPath hdot' _ h.symm
  · exact metadataPath_ne_integrityPath _ _ h.symm
  · exact hne (integrityPath_injective h)

/-- A snapshot on trial. -/
structure PendingValidation where
  targetSnapshot : Bytes
  previousSnapshot : Option Bytes
  impact : Bytes
  lastRollbackFailure : Option Bytes

/-- What the self-healing remembers. -/
structure SnapshotRuntimeState where
  runtimeSnapshot : Option Bytes
  knownGoodSnapshot : Option Bytes
  pendingValidation : Option PendingValidation

/-- The snapshots that the state names. -/
def SnapshotRuntimeState.snapshots (state : SnapshotRuntimeState) : List Bytes :=
  state.runtimeSnapshot.toList ++ state.knownGoodSnapshot.toList ++
    match state.pendingValidation with
    | none => []
    | some pending => pending.targetSnapshot :: pending.previousSnapshot.toList

end Fluxheim.Snapshot
