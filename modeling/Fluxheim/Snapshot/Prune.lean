import Fluxheim.Snapshot.FileOps

/-!
# Pruning

The model of `prune`: which snapshots are deleted is decided from the files as they are, the
boundaries of those that stay are written, and then the files of the others are removed one by one.
-/

namespace Fluxheim.Snapshot

open Ascii Fallible Crash Crash.Prog List

/-- What is to be kept. -/
structure SnapshotPruneOptions where
  keep : Option ℕ
  olderThan : Option ℕ
  protectedIds : List Bytes

/-- What was done. -/
structure SnapshotPruneReport where
  deleted : List Bytes
  retained : ℕ

section Plan

variable (store : SnapshotStore) (options : SnapshotPruneOptions) (w : StoreWorld)

/-- The parent of a snapshot, if it loads and has one. -/
def parentOf (id : Bytes) : Option Bytes :=
  match loadSnapshot store w id with
  | .ok snapshot => snapshot.metadata.parentId
  | .error _ => none

/-- The snapshots that are not deleted.  The set is a list: only its members are looked at. -/
def protectedSnapshots : Except SnapshotError (List Bytes) := do
  let current ← currentId w
  let state ← loadRuntimeState store w
  let named := options.protectedIds ++ current.toList ++ state.toList.flatMap (·.snapshots)
  pure (named ++ named.filterMap (parentOf store w))

/-- The order of snapshots, by generation and then by time. -/
def pruneOrder (a b : ConfigSnapshot) : Prop :=
  a.metadata.generation < b.metadata.generation ∨
    a.metadata.generation = b.metadata.generation ∧
      a.metadata.createdUnixSecs ≤ b.metadata.createdUnixSecs

instance : DecidableRel pruneOrder := fun _ _ => inferInstanceAs (Decidable (_ ∨ _ ∧ _))

/-- Whether the options ask for the snapshot to be deleted. -/
def expired (now keepFrom index : ℕ) (snapshot : ConfigSnapshot) : Bool :=
  (options.keep.isSome && index < keepFrom) ||
    options.olderThan.any fun age => age ≤ now - snapshot.metadata.createdUnixSecs

/-- What is to be done. -/
structure PrunePlan where
  snapshots : List ConfigSnapshot
  deleteIds : List Bytes
  retainedIds : List Bytes
  boundaries : List PruneBoundary

/-- The boundary of a snapshot that stays without its parent. -/
def boundaryOf (deleteIds retainedIds : List Bytes) (snapshot : ConfigSnapshot) :
    Option PruneBoundary :=
  match snapshot.metadata.parentId with
  | some parent =>
    if retainedIds.contains snapshot.id && deleteIds.contains parent then
      some ⟨snapshot.id, parent⟩
    else none
  | none => none

/-- What `prune_locked` decides before it changes anything; the clock may be before the epoch. -/
def prunePlan (clock : Option ℕ) : Except SnapshotError PrunePlan := do
  let snapshots := (listSnapshots store w).insertionSort pruneOrder
  let protectedIds ← protectedSnapshots store options w
  let now ← okOr clock .invalidSystemClock
  let keepFrom := snapshots.length - options.keep.getD 0
  let deleteIds := (snapshots.zipIdx.filter fun entry =>
    !protectedIds.contains entry.1.id && expired options now keepFrom entry.2 entry.1).map (·.1.id)
  let retainedIds := (snapshots.filter fun snapshot => !deleteIds.contains snapshot.id).map (·.id)
  let boundaries ← loadPruneBoundaries store w
  pure
    { snapshots := snapshots
      deleteIds := deleteIds
      retainedIds := retainedIds
      boundaries := (boundaries.filter fun boundary => retainedIds.contains boundary.childId) ∪
        snapshots.filterMap (boundaryOf deleteIds retainedIds) }

end Plan

section Program

variable (store : SnapshotStore)

/-- The file of the boundaries. -/
def encodePruneBoundaries (records : List PruneBoundary) : Except SnapshotError Bytes := do
  let recordsToml ← okOr (store.toml.pruneRecords.encode records) .encode
  let sig ← sealState store.integrity PRUNE_BOUNDARY_MAC_LABEL recordsToml
  let raw ← okOr (store.toml.pruneBoundaries.encode ⟨recordsToml, sig.1, sig.2⟩) .encode
  if MAX_PRUNE_BOUNDARY_BYTES < raw.length then .error .pruneBoundaryInvalid else .ok raw

/-- The file is written. -/
def savePruneBoundaries (records : List PruneBoundary) : StoreProg Unit := do
  let raw ← inspect fun _ => encodePruneBoundaries store records
  writeAtomically pruneBoundaryPath raw false

/-- The files of the snapshots are removed. -/
def deleteSnapshots : List ConfigSnapshot → StoreProg Unit
  | [] => pure ()
  | snapshot :: snapshots => do
      removeIfPresent snapshot.configPath
      removeIfPresent snapshot.metadataPath
      removeIfPresent (integrityPath snapshot.id)
      deleteSnapshots snapshots

/-- The snapshots that a plan deletes. -/
def PrunePlan.deleted (plan : PrunePlan) : List ConfigSnapshot :=
  plan.snapshots.filter fun snapshot => plan.deleteIds.contains snapshot.id

/-- The prune. -/
def pruneLocked (options : SnapshotPruneOptions) (clock : Option ℕ) :
    StoreProg SnapshotPruneReport := do
  let plan ← inspect fun w => prunePlan store options w clock
  savePruneBoundaries store plan.boundaries
  deleteSnapshots plan.deleted
  sync
  pure ⟨plan.deleted.map (·.id), plan.snapshots.length - plan.deleted.length⟩

/-- The same, with the check of its options. -/
def prune (options : SnapshotPruneOptions) (clock : Option ℕ) : StoreProg SnapshotPruneReport :=
  if options.keep.isNone && options.olderThan.isNone then Prog.fail .invalidPrunePolicy
  else pruneLocked store options clock

end Program

section Plan

variable {store : SnapshotStore} {options : SnapshotPruneOptions} {w : StoreWorld}
  {clock : Option ℕ} {plan : PrunePlan}

/-- Both ends of a boundary are ids. -/
def PruneBoundary.Valid (boundary : PruneBoundary) : Prop :=
  isSnapshotId boundary.childId = true ∧ isSnapshotId boundary.removedParentId = true

variable {records : List PruneBoundary}

theorem valid_of_decodePruneBoundaries {raw : Bytes}
    (h : decodePruneBoundaries store raw = .ok records) : ∀ r ∈ records, r.Valid := by
  obtain ⟨kept, -, h⟩ := bind_eq_ok.1 h
  obtain ⟨-, h⟩ := ite_error_eq_ok.1 h
  obtain ⟨records', -, h⟩ := bind_eq_ok.1 h
  obtain ⟨⟨⟩, hall, h⟩ := bind_eq_ok.1 h
  obtain rfl := Except.ok.inj h
  intro r hrec
  obtain ⟨⟨⟩, hchild, hparent⟩ := bind_eq_ok.1 (forM_eq_ok.1 hall r hrec)
  exact ⟨validateSnapshotId_eq_ok.1 hchild, validateSnapshotId_eq_ok.1 hparent⟩

theorem valid_of_loadPruneBoundaries
    (h : loadPruneBoundaries store w = .ok records) : ∀ r ∈ records, r.Valid := by
  obtain ⟨raw?, -, h⟩ := bind_eq_ok.1 h
  cases raw? with
  | none =>
    obtain rfl := Except.ok.inj h
    exact nofun
  | some raw => exact valid_of_decodePruneBoundaries h

/-- Boundaries that were saved are read back. -/
theorem loadPruneBoundaries_of_read {w' : StoreWorld} {raw : Bytes}
    (henc : encodePruneBoundaries store records = .ok raw)
    (hval : ∀ r ∈ records, r.Valid) (hread : w'.read pruneBoundaryPath = some raw) :
    loadPruneBoundaries store w' = .ok records := by
  obtain ⟨recordsToml, hreco, henc⟩ := bind_eq_ok.1 henc
  obtain ⟨sig, hseal, henc⟩ := bind_eq_ok.1 henc
  obtain ⟨raw', hraw, henc⟩ := bind_eq_ok.1 henc
  obtain ⟨hlen, henc⟩ := ite_error_eq_ok.1 henc
  obtain rfl := Except.ok.inj henc
  have hraw := okOr_eq_ok.1 hraw
  have hfile : readOptionalWithLimit w' pruneBoundaryPath MAX_PRUNE_BOUNDARY_BYTES =
      .ok (some raw') := by
    rw [readOptionalWithLimit, readWithLimit, hread]
    dsimp only
    rw [if_neg hlen, store.toml.pruneBoundaries.utf8_encode hraw]
    rfl
  have hall : records.forM (fun r => do
      validateSnapshotId r.childId
      validateSnapshotId r.removedParentId) = .ok () := by
    refine forM_eq_ok.2 fun r hrec => bind_eq_ok.2 ⟨(), ?_, ?_⟩
    · exact validateSnapshotId_eq_ok.2 (hval r hrec).1
    · exact validateSnapshotId_eq_ok.2 (hval r hrec).2
  unfold loadPruneBoundaries decodePruneBoundaries
  rw [hfile, ok_bind]
  dsimp only
  rw [store.toml.pruneBoundaries.decode_encode hraw, okOr_some, ok_bind, opensState_sealState hseal,
    store.toml.pruneRecords.decode_encode (okOr_eq_ok.1 hreco), okOr_some, ok_bind, hall]
  rfl

/-- What a plan is made of. -/
structure Planned (store : SnapshotStore) (options : SnapshotPruneOptions) (w : StoreWorld)
    (plan : PrunePlan) : Prop where
  mem_snapshots : ∀ snapshot, snapshot ∈ plan.snapshots ↔ snapshot ∈ listSnapshots store w
  unprotected : ∃ protectedIds, protectedSnapshots store options w = .ok protectedIds ∧
    ∀ id ∈ plan.deleteIds, id ∉ protectedIds
  mem_retainedIds : ∀ id, id ∈ plan.retainedIds ↔
    (∃ snapshot ∈ plan.snapshots, snapshot.id = id) ∧ id ∉ plan.deleteIds
  boundaries : ∃ before, loadPruneBoundaries store w = .ok before ∧
    ∀ boundary, boundary ∈ plan.boundaries ↔
      (boundary ∈ before ∧ boundary.childId ∈ plan.retainedIds) ∨
      ∃ snapshot ∈ plan.snapshots, snapshot.id = boundary.childId ∧
        snapshot.metadata.parentId = some boundary.removedParentId ∧
        boundary.childId ∈ plan.retainedIds ∧ boundary.removedParentId ∈ plan.deleteIds

theorem boundaryOf_eq_some {deleteIds rids : List Bytes} {snap : ConfigSnapshot}
    {boundary : PruneBoundary} :
    boundaryOf deleteIds rids snap = some boundary ↔
      snap.id = boundary.childId ∧
        snap.metadata.parentId = some boundary.removedParentId ∧
        boundary.childId ∈ rids ∧ boundary.removedParentId ∈ deleteIds := by
  unfold boundaryOf
  cases hparent : snap.metadata.parentId with
  | none => simp
  | some parent =>
    obtain ⟨child, removed⟩ := boundary
    simp only [Option.ite_none_right_eq_some, Bool.and_eq_true, contains_eq_mem,
      decide_eq_true_eq, Option.some.injEq, PruneBoundary.mk.injEq]
    constructor
    · rintro ⟨⟨hret, hdel⟩, rfl, rfl⟩
      exact ⟨rfl, rfl, hret, hdel⟩
    · rintro ⟨rfl, rfl, hret, hdel⟩
      exact ⟨⟨hret, hdel⟩, rfl, rfl⟩

theorem planned_of_prunePlan (h : prunePlan store options w clock = .ok plan) :
    Planned store options w plan := by
  obtain ⟨pids, hprotected, h⟩ := bind_eq_ok.1 h
  obtain ⟨now, -, h⟩ := bind_eq_ok.1 h
  obtain ⟨before, hpre, h⟩ := bind_eq_ok.1 h
  obtain rfl := Except.ok.inj h
  refine ⟨fun snap => mem_insertionSort _, ⟨pids, hprotected, ?_⟩, ?_,
    ⟨before, hpre, ?_⟩⟩
  · intro id hid hmem
    obtain ⟨e, hentry, rfl⟩ := mem_map.1 hid
    have hchosen := (mem_filter.1 hentry).2
    simp [hmem] at hchosen
  · intro id
    simp only [mem_map, mem_filter, Bool.not_eq_true', contains_eq_mem, decide_eq_false_iff_not]
    constructor
    · rintro ⟨snap, ⟨hmem, hkept⟩, rfl⟩
      exact ⟨⟨snap, hmem, rfl⟩, hkept⟩
    · rintro ⟨⟨snap, hmem, rfl⟩, hkept⟩
      exact ⟨snap, ⟨hmem, hkept⟩, rfl⟩
  · intro boundary
    rw [mem_union_iff, mem_filter, mem_filterMap]
    simp only [boundaryOf_eq_some, contains_eq_mem, decide_eq_true_eq]

theorem Planned.loads (h : Planned store options w plan) {snapshot : ConfigSnapshot}
    (hmem : snapshot ∈ plan.snapshots) : loadSnapshot store w snapshot.id = .ok snapshot :=
  loadSnapshot_of_mem_listSnapshots ((h.mem_snapshots snapshot).1 hmem)

theorem Planned.valid (h : Planned store options w plan) : ∀ boundary ∈ plan.boundaries,
    boundary.Valid := by
  intro boundary hbound
  obtain ⟨before, hpre, hmem⟩ := h.boundaries
  obtain ⟨hold, -⟩ | ⟨snap, hsnap, hid, hparent, -⟩ := (hmem boundary).1 hbound
  · exact valid_of_loadPruneBoundaries hpre boundary hold
  · have hloads := loads_of_loadSnapshot (h.loads hsnap)
    exact ⟨hid ▸ hloads.valid, hloads.parent_valid hparent⟩

end Plan

end Fluxheim.Snapshot
