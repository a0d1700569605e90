import Fluxheim.Snapshot.Prune

/-!
# What pruning keeps

A prune can stop after any of its file operations.  It has then changed nothing, or it has written
the boundaries of its plan and removed some files of the snapshots that it deletes.
-/

namespace Fluxheim.Snapshot

open Ascii Fallible Crash Crash.Prog List

/-- The boundaries are written, and only files of snapshots that are deleted have been removed. -/
structure Pruning (store : SnapshotStore) (w : StoreWorld) (plan : PrunePlan) (w' : StoreWorld) :
    Prop where
  boundaries : loadPruneBoundaries store w' = .ok plan.boundaries
  frame : ∀ path, ¬ Temporary path → path ≠ pruneBoundaryPath →
    (∀ snapshot ∈ plan.deleted, path ∉ snapshotPaths snapshot.id) → w'.read path = w.read path
  shrinks : ∀ path, ¬ Temporary path → path ≠ pruneBoundaryPath →
    w'.read path = w.read path ∨ w'.read path = none

/-- A prune that stops has not begun, or is under way. -/
def Stopped (store : SnapshotStore) (options : SnapshotPruneOptions) (clock : Option ℕ)
    (w w' : StoreWorld) : Prop :=
  Same w w' ∨ ∃ plan, prunePlan store options w clock = .ok plan ∧ Pruning store w plan w'

section Spec

variable {store : SnapshotStore} {options : SnapshotPruneOptions} {clock : Option ℕ}
  {w w' w'' : StoreWorld} {plan : PrunePlan}

theorem ne_pruneBoundaryPath {id : Bytes} {path : StorePath} (h : path ∈ snapshotPaths id) :
    path ≠ pruneBoundaryPath := by
  simp only [snapshotPaths, mem_cons, not_mem_nil, or_false] at h
  rcases h with rfl | rfl | rfl <;>
  · intro hpath
    cases hpath

theorem Pruning.same (h : Pruning store w plan w') (hsame : Same w' w'') :
    Pruning store w plan w'' where
  boundaries := by
    rw [loadPruneBoundaries_congr store (hsame _ not_temporary_pruneBoundaryPath), h.boundaries]
  frame path hpath hne hkept := (hsame path hpath).trans (h.frame path hpath hne hkept)
  shrinks path hpath hne := by
    rw [hsame path hpath]
    exact h.shrinks path hpath hne

theorem Pruning.remove (h : Pruning store w plan w') {snap : ConfigSnapshot} {path : StorePath}
    (hsnap : snap ∈ plan.deleted) (hpath : path ∈ snapshotPaths snap.id)
    (hrem : Sets w' w'' path none) : Pruning store w plan w'' where
  boundaries := by
    rw [loadPruneBoundaries_congr store (hrem.frame _ (ne_pruneBoundaryPath hpath).symm
      not_temporary_pruneBoundaryPath), h.boundaries]
  frame other hother hne hkept := by
    have hne' : other ≠ path := fun heq => hkept snap hsnap (heq ▸ hpath)
    exact (hrem.frame other hne' hother).trans (h.frame other hother hne hkept)
  shrinks other hother hne := by
    by_cases heq : other = path
    · exact .inr (heq ▸ hrem.value)
    · rw [hrem.frame other heq hother]
      exact h.shrinks other hother hne

/-- The files of the snapshots are removed, configurations first. -/
theorem deleteSnapshots_spec (hplan : prunePlan store options w clock = .ok plan)
    (snaps : List ConfigSnapshot) : ∀ w', snaps ⊆ plan.deleted → Pruning store w plan w' →
    wp (deleteSnapshots snaps)
      (fun _ w'' => Pruning store w plan w'' ∧
        (∀ id, w'.read (configPath id) = none → w''.read (configPath id) = none) ∧
        ∀ snap ∈ snaps, w''.read (configPath snap.id) = none)
      (fun _ => Stopped store options clock w) (Stopped store options clock w) w' := by
  have hplanned := planned_of_prunePlan hplan
  have hstop : ∀ w', Pruning store w plan w' → Stopped store options clock w w' :=
    fun w' h => .inr ⟨plan, hplan, h⟩
  have hsame : ∀ w', Pruning store w plan w' → ∀ w'', Same w' w'' →
      (∀ _ : SnapshotError, Stopped store options clock w w'') ∧
        Stopped store options clock w w'' :=
    fun w' h w'' h' => ⟨fun _ => hstop w'' (h.same h'), hstop w'' (h.same h')⟩
  have hgone : ∀ {v v' : StoreWorld} {path : StorePath}, Sets v v' path none → ∀ id,
      v.read (configPath id) = none → v'.read (configPath id) = none := by
    intro v v' path hrem id hnone
    by_cases heq : configPath id = path
    · rw [heq, hrem.value]
    · exact (hrem.frame _ heq (not_temporary_of_toml rfl)).trans hnone
  induction snaps with
  | nil =>
    intro w' _ h
    exact wp_pure ⟨h, fun _ => id, nofun⟩
  | cons snap snaps ih =>
    intro w' hsub h
    have hdel := hsub mem_cons_self
    have hloads := loads_of_loadSnapshot (hplanned.loads (mem_filter.1 hdel).1)
    rw [deleteSnapshots, hloads.configPath_eq, hloads.metadataPath_eq]
    refine wp_bind (wp_removeIfPresent (hsame w' h) fun w₁ hrem₁ => ?_)
    have h₁ := h.remove hdel (by simp [snapshotPaths]) hrem₁
    refine wp_bind (wp_removeIfPresent (hsame w₁ h₁) fun w₂ hrem₂ => ?_)
    have h₂ := h₁.remove hdel (by simp [snapshotPaths]) hrem₂
    refine wp_bind (wp_removeIfPresent (hsame w₂ h₂) fun w₃ hrem₃ => ?_)
    have h₃ := h₂.remove hdel (by simp [snapshotPaths]) hrem₃
    have hkept : ∀ id, w₁.read (configPath id) = none → w₃.read (configPath id) = none :=
      fun id hnone => hgone hrem₃ id (hgone hrem₂ id hnone)
    refine wp_mono (ih w₃ (subset_of_cons_subset hsub) h₃) ?_ (fun _ _ => id) fun _ => id
    rintro - w'' ⟨hpruned, habs, hall⟩
    exact ⟨hpruned, fun id hnone => habs id (hkept id (hgone hrem₁ id hnone)),
      forall_mem_cons.2 ⟨habs _ (hkept _ hrem₁.value), hall⟩⟩

/-- **A prune changes nothing, or is under way; one that returns has deleted what it planned
to.** -/
theorem prune_spec (store : SnapshotStore) (options : SnapshotPruneOptions) (clock : Option ℕ)
    (w : StoreWorld) :
    wp (prune store options clock)
      (fun _ w' => ∃ plan, prunePlan store options w clock = .ok plan ∧ Pruning store w plan w' ∧
        ∀ snap ∈ plan.deleted, w'.read (configPath snap.id) = none)
      (fun _ => Stopped store options clock w) (Stopped store options clock w) w := by
  have hstart : Stopped store options clock w w := .inl (.refl w)
  unfold prune
  split_ifs with hpol
  · exact wp_fail hstart
  refine wp_bind (wp_inspect (fun plan hplan => ?_) fun _ _ => hstart)
  have hplanned := planned_of_prunePlan hplan
  refine wp_bind (wp_bind (wp_inspect (fun raw hraw => ?_) fun _ _ => hstart))
  have hsav : ∀ w', Written w w' pruneBoundaryPath raw false → Pruning store w plan w' := by
    intro w' hwritten
    refine ⟨loadPruneBoundaries_of_read hraw hplanned.valid hwritten.value, ?_, ?_⟩
    · exact fun path hpath hne _ => hwritten.frame path hne hpath
    · exact fun path hpath hne => .inl (hwritten.frame path hne hpath)
  have hunder : ∀ w', Written w w' pruneBoundaryPath raw false → Stopped store options clock w w' :=
    fun w' hwritten => .inr ⟨plan, hplan, hsav w' hwritten⟩
  refine wp_writeAtomically not_temporary_pruneBoundaryPath
    (fun w' hsame => ⟨fun _ _ => .inl hsame, .inl hsame⟩)
    fun w₁ hwritten => ⟨?_, fun _ => hunder w₁ hwritten, hunder w₁ hwritten⟩
  refine wp_bind (wp_mono (deleteSnapshots_spec hplan plan.deleted w₁ (Subset.refl _)
    (hsav w₁ hwritten)) ?_ (fun _ _ => id) fun _ => id)
  rintro - w₂ ⟨hpruned, -, hgone⟩
  refine wp_bind (wp_sync fun w₃ hsame => ⟨wp_pure ⟨plan, hplan, hpruned.same hsame, ?_⟩,
    fun _ => .inr ⟨plan, hplan, hpruned.same hsame⟩, .inr ⟨plan, hplan, hpruned.same hsame⟩⟩)
  exact fun snap hsnap =>
    (hsame _ (not_temporary_of_toml rfl)).trans (hgone snap hsnap)

end Spec

/-! ### What must stay -/

/-- A snapshot that is named: by the caller, by the pointer to the current one, or by the state of
the self-healing. -/
inductive Needed (store : SnapshotStore) (w : StoreWorld) (options : SnapshotPruneOptions) :
    Bytes → Prop
  | explicit {id : Bytes} (h : id ∈ options.protectedIds) : Needed store w options id
  | current {id : Bytes} (h : currentId w = .ok (some id)) : Needed store w options id
  | runtime {id : Bytes} {state : SnapshotRuntimeState}
      (hstate : loadRuntimeState store w = .ok (some state))
      (h : state.runtimeSnapshot = some id) : Needed store w options id
  | knownGood {id : Bytes} {state : SnapshotRuntimeState}
      (hstate : loadRuntimeState store w = .ok (some state))
      (h : state.knownGoodSnapshot = some id) : Needed store w options id
  | validationTarget {id : Bytes} {state : SnapshotRuntimeState} {pending : PendingValidation}
      (hstate : loadRuntimeState store w = .ok (some state))
      (hpending : state.pendingValidation = some pending) (h : pending.targetSnapshot = id) :
      Needed store w options id
  | rollbackTarget {id : Bytes} {state : SnapshotRuntimeState} {pending : PendingValidation}
      (hstate : loadRuntimeState store w = .ok (some state))
      (hpending : state.pendingValidation = some pending) (h : pending.previousSnapshot = some id) :
      Needed store w options id

/-- A snapshot that is needed, or the parent of one. -/
def Protected (store : SnapshotStore) (w : StoreWorld) (options : SnapshotPruneOptions)
    (id : Bytes) : Prop :=
  Needed store w options id ∨
    ∃ child snapshot, Needed store w options child ∧ loadSnapshot store w child = .ok snapshot ∧
      snapshot.metadata.parentId = some id

/-- The parent of the snapshot is there, or its removal is on record. -/
def Known (store : SnapshotStore) (w : StoreWorld) (child parent : Bytes) : Prop :=
  w.read (configPath parent) ≠ none ∨
    ∃ boundaries, loadPruneBoundaries store w = .ok boundaries ∧ ⟨child, parent⟩ ∈ boundaries

section Safety

variable {store : SnapshotStore} {options : SnapshotPruneOptions} {clock : Option ℕ}
  {w w' : StoreWorld} {plan : PrunePlan} {id : Bytes}

theorem mem_protectedSnapshots {protectedIds : List Bytes}
    (h : protectedSnapshots store options w = .ok protectedIds)
    (hid : Protected store w options id) : id ∈ protectedIds := by
  obtain ⟨current, hcur, h⟩ := bind_eq_ok.1 h
  obtain ⟨state?, hstate?, h⟩ := bind_eq_ok.1 h
  obtain rfl := Except.ok.inj h
  have hnamed : ∀ {id}, Needed store w options id →
      id ∈ options.protectedIds ++ current.toList ++ state?.toList.flatMap (·.snapshots) := by
    intro id hneed
    have hstate : ∀ {state : SnapshotRuntimeState},
        loadRuntimeState store w = .ok (some state) → id ∈ state.snapshots →
        id ∈ options.protectedIds ++ current.toList ++ state?.toList.flatMap (·.snapshots) := by
      intro state hload hmem
      obtain rfl := Except.ok.inj (hstate?.symm.trans hload)
      exact mem_append_right _ (mem_flatMap.2 ⟨state, mem_singleton_self _, hmem⟩)
    cases hneed with
    | explicit h => exact mem_append_left _ (mem_append_left _ h)
    | current h =>
      obtain rfl := Except.ok.inj (hcur.symm.trans h)
      exact mem_append_left _ (mem_append_right _ (mem_singleton_self _))
    | runtime hload h => exact hstate hload (by simp [SnapshotRuntimeState.snapshots, h])
    | knownGood hload h => exact hstate hload (by simp [SnapshotRuntimeState.snapshots, h])
    | validationTarget hload hpending h =>
      exact hstate hload (by simp [SnapshotRuntimeState.snapshots, hpending, h])
    | rollbackTarget hload hpending h =>
      exact hstate hload (by simp [SnapshotRuntimeState.snapshots, hpending, h])
  obtain hneed | ⟨child, snap, hneed, hload, hparent⟩ := hid
  · exact mem_append_left _ (hnamed hneed)
  · refine mem_append_right _ (mem_filterMap.2 ⟨child, hnamed hneed, ?_⟩)
    rw [parentOf, hload]
    exact hparent

/-- Files of a snapshot that is not deleted stay as they are. -/
theorem Pruning.read_snapshot (h : Pruning store w plan w')
    (hplan : prunePlan store options w clock = .ok plan) (hval : isSnapshotId id = true)
    (hid : id ∉ plan.deleteIds) : ∀ path ∈ snapshotPaths id, w'.read path = w.read path := by
  intro path hpath
  refine h.frame path (not_temporary_of_mem_snapshotPaths hpath) (ne_pruneBoundaryPath hpath) ?_
  intro snap hsnap hmem
  obtain ⟨hlist, hdel⟩ := mem_filter.1 hsnap
  have hloads := loads_of_loadSnapshot ((planned_of_prunePlan hplan).loads hlist)
  have hne : id ≠ snap.id := by
    rintro rfl
    exact hid (by simpa using hdel)
  exact snapshotPaths_disjoint hval hloads.valid hne path hpath hmem

/-- No file of a protected snapshot is touched. -/
theorem Stopped.read_protected (h : Stopped store options clock w w')
    (hid : Protected store w options id) (hval : isSnapshotId id = true) :
    ∀ path ∈ snapshotPaths id, w'.read path = w.read path := by
  intro path hpath
  obtain hsame | ⟨plan, hplan, hpruned⟩ := h
  · exact hsame path (not_temporary_of_mem_snapshotPaths hpath)
  · obtain ⟨pids, hprotected, hdel⟩ := (planned_of_prunePlan hplan).unprotected
    exact hpruned.read_snapshot hplan hval
      (fun hmem => hdel id hmem (mem_protectedSnapshots hprotected hid)) path hpath

/-- The parent of a snapshot that is retained stays known. -/
theorem Pruning.known (h : Pruning store w plan w')
    (hplan : prunePlan store options w clock = .ok plan) (hid : id ∈ plan.retainedIds)
    {snap : ConfigSnapshot} {parent : Bytes} (hload : loadSnapshot store w id = .ok snap)
    (hparent : snap.metadata.parentId = some parent) (hknown : Known store w id parent) :
    Known store w' id parent := by
  have hplanned := planned_of_prunePlan hplan
  obtain ⟨before, hbefore, hmem⟩ := hplanned.boundaries
  obtain hpre | ⟨boundaries, hbound, hrecd⟩ := hknown
  · by_cases hdel : parent ∈ plan.deleteIds
    · -- the parent is deleted, which the new boundary says
      obtain ⟨⟨listed, hlist, rfl⟩, -⟩ := (hplanned.mem_retainedIds id).1 hid
      obtain rfl := Except.ok.inj ((hplanned.loads hlist).symm.trans hload)
      exact .inr ⟨plan.boundaries, h.boundaries,
        (hmem _).2 (.inr ⟨listed, hlist, rfl, hparent, hid, hdel⟩)⟩
    · have hval := (loads_of_loadSnapshot hload).parent_valid hparent
      left
      rwa [h.read_snapshot hplan hval hdel (configPath parent) (by simp [snapshotPaths])]
  · obtain rfl := Except.ok.inj (hbefore.symm.trans hbound)
    exact .inr ⟨plan.boundaries, h.boundaries, (hmem _).2 (.inl ⟨hrecd, hid⟩)⟩

theorem Same.known {parent : Bytes} (h : Same w w') (hknown : Known store w id parent) :
    Known store w' id parent := by
  obtain hpre | hrecd := hknown
  · left
    rwa [h _ (not_temporary_of_toml rfl)]
  · right
    rwa [loadPruneBoundaries_congr store (h _ not_temporary_pruneBoundaryPath)]

/-- A snapshot that is there after a prune that returned was retained by it. -/
theorem mem_retainedIds_of_loads (h : Pruning store w plan w')
    (hplan : prunePlan store options w clock = .ok plan) (hsound : Uncorrupted store w)
    (hgone : ∀ snapshot ∈ plan.deleted, w'.read (configPath snapshot.id) = none)
    {snapshot : ConfigSnapshot} (hload : loadSnapshot store w' id = .ok snapshot) :
    id ∈ plan.retainedIds ∧ loadSnapshot store w id = .ok snapshot := by
  have hplanned := planned_of_prunePlan hplan
  have hloads := loads_of_loadSnapshot hload
  have hpre : w.read (configPath id) ≠ none := by
    obtain heq | hnone := h.shrinks (configPath id) (not_temporary_of_toml rfl) nofun
    · exact heq ▸ hloads.config
    · exact absurd hnone hloads.config
  obtain ⟨listed, hlist, hload'⟩ := mem_listSnapshots hsound hloads.valid hpre
  have hid := (loads_of_loadSnapshot hload').id_eq
  have hmem := (hplanned.mem_snapshots listed).2 hlist
  have hkept : id ∉ plan.deleteIds := by
    intro hdel
    apply hloads.config
    rw [← hid]
    exact hgone listed (mem_filter.2 ⟨hmem, by simpa [hid] using hdel⟩)
  refine ⟨(hplanned.mem_retainedIds id).2 ⟨⟨listed, hmem, hid⟩, hkept⟩, ?_⟩
  rw [← hload]
  exact (loadSnapshot_congr store (h.read_snapshot hplan hloads.valid hkept)).symm

/-- The current snapshot and its parent are as they were, and so is what a rollback restores. -/
theorem Stopped.rollback (h : Stopped store options clock w w') {C : Type}
    {loadConfig : Bytes → Option C} {candidate : ConfigSnapshot × C}
    (hcand : rollbackCandidate store w loadConfig none = .ok candidate) :
    rollbackCandidate store w' loadConfig none = .ok candidate := by
  have hcur : w'.read currentPath = w.read currentPath := by
    obtain hsame | ⟨plan, hplan, hpruned⟩ := h
    · exact hsame _ not_temporary_currentPath
    · exact hpruned.frame _ not_temporary_currentPath (by decide) fun snap _ hmem => by
        simp [snapshotPaths, currentPath, configPath, metadataPath, integrityPath] at hmem
  have hpre : ∀ parent, previousSnapshotId store w = .ok parent →
      previousSnapshotId store w' = .ok parent ∧ Protected store w options parent ∧
        isSnapshotId parent = true := by
    intro parent hparent
    unfold previousSnapshotId at hparent ⊢
    obtain ⟨current?, hpointer, hparent⟩ := bind_eq_ok.1 hparent
    obtain ⟨current, hsome, hparent⟩ := bind_eq_ok.1 hparent
    obtain ⟨snap, hload, hlast⟩ := bind_eq_ok.1 hparent
    obtain rfl := okOr_eq_ok.1 hsome
    have hloads := loads_of_loadSnapshot hload
    have hneed : Needed store w options current := .current hpointer
    have hparent' := okOr_eq_ok.1 hlast
    refine ⟨?_, .inr ⟨current, snap, hneed, hload, hparent'⟩, hloads.parent_valid hparent'⟩
    rw [currentId_congr hcur, hpointer, ok_bind, okOr_some, ok_bind,
      loadSnapshot_congr store (h.read_protected (.inl hneed) hloads.valid), hload, ok_bind, hlast]
  unfold rollbackCandidate at hcand ⊢
  dsimp only at hcand ⊢
  obtain ⟨parent, hparent, hcand⟩ := bind_eq_ok.1 hcand
  obtain ⟨hparent', hprotected, hval⟩ := hpre parent hparent
  rw [hparent', ok_bind, ← hcand]
  unfold verifiedConfigSnapshot
  rw [loadSnapshotConfigBytes_congr store (h.read_protected hprotected hval)]

end Safety

/-- The encoding by a table. -/
def tableCodec {α : Type} [DecidableEq α] (table : List (α × Bytes))
    (h : ∀ entry ∈ table, (table.find? fun other => other.2 = entry.2) = some entry ∧
      utf8Valid entry.2 = true) : Codec α where
  encode a := (table.find? fun entry => entry.1 = a).map (·.2)
  decode raw := (table.find? fun entry => entry.2 = raw).map (·.1)
  decode_encode := by
    intro a raw hencode
    obtain ⟨entry, hfind, rfl⟩ := Option.map_eq_some_iff.1 hencode
    have hentry := h entry (mem_of_find?_eq_some hfind)
    have ha := List.find?_some hfind
    rw [decide_eq_true_eq] at ha
    rw [hentry.1, Option.map_some, ha]
  utf8_encode := by
    intro a raw hencode
    obtain ⟨entry, hfind, rfl⟩ := Option.map_eq_some_iff.1 hencode
    exact (h entry (mem_of_find?_eq_some hfind)).2

/-- An encoding of nothing. -/
def noCodec (α : Type) : Codec α := ⟨fun _ => none, fun _ => none, nofun, nofun⟩

/-- A store without a key. -/
def keylessStore (toml : TomlCodecs) : SnapshotStore := ⟨none, toml⟩

/-- A store with the encodings that the example needs. -/
def chainStore : SnapshotStore :=
  keylessStore
    { metadata := tableCodec
        [(⟨ascii "s2", 20, some (ascii "s1"), 2, none⟩, ascii "m2"),
          (⟨ascii "s3", 30, some (ascii "s2"), 3, none⟩, ascii "m3")] (by decide +kernel)
      manifest := noCodec _
      generation := noCodec _
      pruneBoundaries := tableCodec [(⟨ascii "r", none, none⟩, ascii "b")] (by decide +kernel)
      pruneRecords := tableCodec [([⟨ascii "s2", ascii "s1"⟩], ascii "r")] (by decide +kernel)
      persistedRuntimeState := noCodec _
      runtimeState := noCodec _ }

/-- Three snapshots, the last of which is current, and each of which but the first has the one
before it for its parent. -/
def chainWorld : StoreWorld where
  root := AList.singleton (ascii "current") (ascii "s3")
  configs := [(ascii "s1.toml", ascii "c1"), (ascii "s2.toml", ascii "c2"),
    (ascii "s2.meta.toml", ascii "m2"), (ascii "s3.toml", ascii "c3"),
    (ascii "s3.meta.toml", ascii "m3")].foldl (fun files file => files.insert file.1 file.2) ∅
  process := 1
  sequence := 0
  faults := []

/-- All that can be deleted is. -/
def keepNone : SnapshotPruneOptions := ⟨some 0, none, []⟩

end Fluxheim.Snapshot
