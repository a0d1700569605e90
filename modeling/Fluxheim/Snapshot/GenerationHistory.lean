import Fluxheim.Lib.Run
import Fluxheim.Snapshot.GenerationRuns
import Fluxheim.Snapshot.PruneSafety

/-!
# Runs of creations and prunes

The creations and prunes of a store, one after the other under the lock of the store, each in a
process of its own, with faults and a budget of its own.  A snapshot is published when its metadata
are in place.
-/

namespace Fluxheim.Snapshot

open Ascii Fallible Crash Crash.Prog Run List Option

/-- The operations. -/
inductive StoreOperation where
  | create (request : SnapshotRequest)
  | prune (options : SnapshotPruneOptions) (clock : Option ℕ)

/-- An operation, in a process and with a sequence number of its own: which of its file operations
fail, and before which of them it is cut off. -/
structure StoreEvent where
  operation : StoreOperation
  process : ℕ
  sequence : ℕ
  faults : List Bool
  budget : ℕ

/-- The files are as they were left. -/
def StoreWorld.resume (w : StoreWorld) (event : StoreEvent) : StoreWorld :=
  { w with process := event.process, sequence := event.sequence, faults := event.faults }

variable (store : SnapshotStore) (w : StoreWorld)

/-- The store after an operation. -/
def StoreEvent.run (event : StoreEvent) : StoreWorld :=
  match event.operation with
  | .create request =>
    (snapshotSerializedConfig store request (w.resume event) event.budget).state
  | .prune options clock => (prune store options clock (w.resume event) event.budget).state

/-- The generation that the metadata under a name say. -/
def metadataGeneration (id : Bytes) : Option ℕ := do
  let raw ← w.read (metadataPath id)
  let metadata ← store.toml.metadata.decode raw
  pure metadata.generation

/-- The snapshots, with their generations, whose metadata have come to be there. -/
def newlyPublished (w w' : StoreWorld) : List (Bytes × ℕ) :=
  w'.configs.keys.filterMap fun name => do
    let id ← stripSuffix (ascii ".meta.toml") name
    if w.read (metadataPath id) = none then
      (metadataGeneration store w' id).map fun generation => (id, generation)
    else none

/-- The store, and the snapshots in the order of publication. -/
structure SnapshotHistory where
  world : StoreWorld
  log : List (Bytes × ℕ)

/-- One operation, and what it has published. -/
def SnapshotHistory.step (h : SnapshotHistory) (event : StoreEvent) : SnapshotHistory :=
  let w := event.run store h.world
  ⟨w, h.log ++ newlyPublished store h.world w⟩

/-- A run on a store. -/
def SnapshotHistory.run (events : List StoreEvent) : SnapshotHistory :=
  events.foldl (SnapshotHistory.step store) ⟨w, []⟩

section Published

variable {store w} {w' : StoreWorld} {id : Bytes} {generation : ℕ}

theorem metadataGeneration_congr (h : w'.read (metadataPath id) = w.read (metadataPath id)) :
    metadataGeneration store w' id = metadataGeneration store w id := by
  rw [metadataGeneration, metadataGeneration, h]

theorem metadataGeneration_of_encode {metadata : SnapshotMetadata} {raw : Bytes}
    (henc : store.toml.metadata.encode metadata = some raw)
    (hread : w.read (metadataPath id) = some raw) :
    metadataGeneration store w id = some metadata.generation := by
  rw [metadataGeneration, hread, bind_eq_bind, bind_some, store.toml.metadata.decode_encode henc]
  rfl

theorem read_ne_none_of_metadataGeneration (h : metadataGeneration store w id = some generation) :
    w.read (metadataPath id) ≠ none := by
  intro hnone
  rw [metadataGeneration, hnone] at h
  cases h

theorem Published.metadataGeneration_eq (h : Published store w id generation) :
    metadataGeneration store w id = some generation := by
  obtain ⟨snap, hload, hmeta, rfl⟩ := h
  obtain ⟨hnone, -⟩ | ⟨raw, hread, -, hdec, -⟩ := (loads_of_loadSnapshot hload).metadata
  · exact absurd hnone hmeta
  · rw [metadataGeneration, hread, bind_eq_bind, bind_some, hdec]
    rfl

theorem mem_newlyPublished : (id, generation) ∈ newlyPublished store w w' ↔
    w.read (metadataPath id) = none ∧ metadataGeneration store w' id = some generation := by
  unfold newlyPublished
  rw [mem_filterMap]
  constructor
  · rintro ⟨name, -, h⟩
    obtain ⟨id', hstem, h⟩ := bind_eq_some_iff.1 h
    split_ifs at h with hnew
    obtain ⟨g, hg, h⟩ := map_eq_some_iff.1 h
    obtain ⟨rfl, rfl⟩ := Prod.mk.inj h
    exact ⟨hnew, hg⟩
  · rintro ⟨hnew, hg⟩
    refine ⟨_, mem_keys_of_read (read_ne_none_of_metadataGeneration hg), ?_⟩
    refine bind_eq_some_iff.2 ⟨id, stripSuffix_append _ id, ?_⟩
    rw [if_pos hnew, hg]
    rfl

theorem nodup_newlyPublished (store : SnapshotStore) (w w' : StoreWorld) :
    (newlyPublished store w w').Nodup := by
  refine Nodup.filterMap (fun name name' e h h' => ?_) w'.configs.keys_nodup
  obtain ⟨id, hstem, h⟩ := bind_eq_some_iff.1 h
  obtain ⟨id', hstem', h'⟩ := bind_eq_some_iff.1 h'
  split_ifs at h h'
  obtain ⟨g, -, rfl⟩ := map_eq_some_iff.1 h
  obtain ⟨g', -, heq⟩ := map_eq_some_iff.1 h'
  rw [stripSuffix_eq_some hstem, stripSuffix_eq_some hstem', (Prod.mk.inj heq).1]

/-- Nothing is published where metadata are kept or removed. -/
theorem newlyPublished_eq_nil (h : ∀ id, w'.read (metadataPath id) = w.read (metadataPath id) ∨
    w'.read (metadataPath id) = none) : newlyPublished store w w' = [] := by
  refine eq_nil_iff_forall_not_mem.2 fun ⟨id, generation⟩ hmem => ?_
  obtain ⟨hnew, hgen⟩ := mem_newlyPublished.1 hmem
  refine read_ne_none_of_metadataGeneration hgen ?_
  obtain heq | hnone := h id
  · rw [heq, hnew]
  · exact hnone

/-- A creation publishes the snapshot that it has created. -/
theorem Creating.newlyPublished_eq {metadata : SnapshotMetadata}
    (h : Creating store w generation (some metadata) w') :
    newlyPublished store w w' = [(metadata.id, generation)] := by
  obtain ⟨hgen, hnew, raw, henc, hread⟩ := h.published metadata rfl
  have hmeta := metadataGeneration_of_encode henc hread
  rw [hgen] at hmeta
  refine perm_singleton.1 ((perm_ext_iff_of_nodup (nodup_newlyPublished store w w')
    (nodup_singleton _)).2 fun ⟨id, g⟩ => ?_)
  rw [mem_newlyPublished, mem_singleton, Prod.mk.injEq]
  constructor
  · rintro ⟨hnew', hg⟩
    by_cases hid : metadata.id = id
    · subst hid
      exact ⟨rfl, some.inj (hg.symm.trans hmeta)⟩
    · have hfra := h.frame id fun _ hmem => some.inj hmem ▸ hid
      exact absurd (hfra.trans hnew') (read_ne_none_of_metadataGeneration hg)
  · rintro ⟨rfl, rfl⟩
    exact ⟨hnew, hmeta⟩

end Published

section Step

variable {store w} {w' : StoreWorld} {event : StoreEvent}

/-- Metadata are kept or removed, or a creation is under way. -/
def Advances (store : SnapshotStore) (w w' : StoreWorld) : Prop :=
  (w'.read generationPath = w.read generationPath ∧
    ∀ id, w'.read (metadataPath id) = w.read (metadataPath id) ∨
      w'.read (metadataPath id) = none) ∨
  ∃ generation new, Creating store w generation new w'

theorem Keeps.advances (h : Keeps w w') : Advances store w w' :=
  .inl ⟨h.generation, fun id => .inl (h.metadata id)⟩

theorem Stage.advances (h : Stage store w w') : Advances store w w' :=
  h.imp_left fun h => ⟨h.generation, fun id => .inl (h.metadata id)⟩

theorem Stopped.advances {opts : SnapshotPruneOptions} {clock : Option ℕ}
    (h : Stopped store opts clock w w') : Advances store w w' := by
  obtain hsame | ⟨plan, -, hpruned⟩ := h
  · exact hsame.keeps.advances
  · refine .inl ⟨hpruned.frame _ not_temporary_generationPath (by decide) fun snap _ => ?_, ?_⟩
    · simp [snapshotPaths, generationPath, configPath, metadataPath, integrityPath]
    · intro id
      refine hpruned.shrinks _ (not_temporary_metadataPath id) fun hpath => ?_
      cases hpath

theorem StoreEvent.advances (store : SnapshotStore) (w : StoreWorld) (event : StoreEvent) :
    Advances store (w.resume event) (event.run store w) := by
  unfold run
  cases event.operation with
  | create req =>
    refine wp_state (wp_mono (snapshotSerializedConfig_spec req _) (fun snap w' h => ?_)
      (fun _ _ => Stage.advances) fun _ => Stage.advances) event.budget
    exact .inr ⟨_, _, h.2⟩
  | prune opts clock =>
    refine wp_state (wp_mono (prune_spec store opts clock _) (fun _ w' h => ?_)
      (fun _ _ => Stopped.advances) fun _ => Stopped.advances) event.budget
    obtain ⟨plan, hplan, hpruned, -⟩ := h
    exact Stopped.advances (.inr ⟨plan, hplan, hpruned⟩)

/-- What a creation publishes is under its generation. -/
theorem Creating.generation_eq {generation : ℕ} {new : Option SnapshotMetadata}
    (h : Creating store w generation new w') :
    ∀ e ∈ newlyPublished store w w', e.2 = generation := by
  cases new with
  | none =>
    rw [newlyPublished_eq_nil fun id => .inl (h.frame id nofun)]
    exact nofun
  | some metadata =>
    rw [h.newlyPublished_eq]
    exact fun e hmem => mem_singleton.1 hmem ▸ rfl

/-- Every published snapshot is one of those that were there, with the same metadata, or is new. -/
theorem Advances.listed {id : Bytes} {generation : ℕ} (h : Advances store w w')
    (hgen : metadataGeneration store w' id = some generation) :
    metadataGeneration store w id = some generation ∨
      (id, generation) ∈ newlyPublished store w w' := by
  have hpre := read_ne_none_of_metadataGeneration hgen
  by_cases hsame : w'.read (metadataPath id) = w.read (metadataPath id)
  · exact .inl (metadataGeneration_congr hsame ▸ hgen)
  · refine .inr (mem_newlyPublished.2 ⟨?_, hgen⟩)
    obtain ⟨-, hkept⟩ | ⟨g, new, hcreate⟩ := h
    · exact absurd ((hkept id).resolve_left hsame) hpre
    · by_contra hne
      refine hsame (hcreate.frame id fun metadata hmem heq => hne ?_)
      exact heq ▸ (hcreate.published metadata hmem).2.1

end Step

/-! ### Whole runs -/

/-- The log is in order and comes after what was kept at first, no generation of it is ahead of the
one that is kept, and it has every snapshot that was not there at first. -/
structure Ordered (store : SnapshotStore) (w₀ : StoreWorld) (h : SnapshotHistory) : Prop where
  increasing : h.log.Pairwise fun first second => first.2 < second.2
  kept : ∀ entry ∈ h.log, ∃ persisted, persistedGeneration store h.world = .ok (some persisted) ∧
    entry.2 ≤ persisted
  ahead : ∀ first, persistedGeneration store w₀ = .ok (some first) →
    (∃ persisted, persistedGeneration store h.world = .ok (some persisted) ∧ first ≤ persisted) ∧
      ∀ entry ∈ h.log, first < entry.2
  listed : ∀ id generation, metadataGeneration store h.world id = some generation →
    metadataGeneration store w₀ id = some generation ∨ (id, generation) ∈ h.log

section Runs

variable {store w} {w₀ w' : StoreWorld} {log : List (Bytes × ℕ)}

variable {generation : ℕ} {new : Option SnapshotMetadata}

/-- The generation that is taken is ahead of the log. -/
theorem Ordered.lt_next (h : Ordered store w₀ ⟨w, log⟩)
    (hcreate : Creating store w generation new w') : ∀ e ∈ log, e.2 < generation := by
  intro e hentry
  obtain ⟨kept, hpersisted, hle⟩ := h.kept e hentry
  obtain ⟨legacyIds, hnext⟩ := hcreate.next
  rw [(nextGeneration_eq_ok hnext).1 kept hpersisted]
  exact Nat.lt_succ_of_le hle

theorem Creating.persistedGeneration_eq (h : Creating store w generation new w') :
    persistedGeneration store w' = .ok (some generation) := by
  obtain ⟨raw, henc, hread⟩ := h.kept
  exact persistedGeneration_of_read henc hread

/-- **Every operation keeps the order.** -/
theorem Ordered.advance (h : Ordered store w₀ ⟨w, log⟩) (hadv : Advances store w w') :
    Ordered store w₀ ⟨w', log ++ newlyPublished store w w'⟩ := by
  have hlist : ∀ id generation, metadataGeneration store w' id = some generation →
      metadataGeneration store w₀ id = some generation ∨
        (id, generation) ∈ log ++ newlyPublished store w w' := by
    intro id generation hgen
    obtain hpre | hnew := hadv.listed hgen
    · exact (h.listed id generation hpre).imp_right fun hmem => mem_append_left _ hmem
    · exact .inr (mem_append_right _ hnew)
  obtain ⟨hgen, hkept⟩ | ⟨generation, new, hcreate⟩ := hadv
  · rw [newlyPublished_eq_nil hkept, append_nil] at hlist ⊢
    have hpersisted := @persistedGeneration_congr store w w' hgen
    refine ⟨h.increasing, fun e hentry => ?_, fun first hfirst => ?_, hlist⟩
    · rw [hpersisted]
      exact h.kept e hentry
    · rw [hpersisted]
      exact h.ahead first hfirst
  · have hbelow := h.lt_next hcreate
    have hnew := hcreate.generation_eq
    have hpersisted := hcreate.persistedGeneration_eq
    refine ⟨pairwise_append.2 ⟨h.increasing, ?_, ?_⟩, ?_, ?_, hlist⟩
    · -- at most one snapshot is new
      cases new with
      | none =>
        rw [newlyPublished_eq_nil fun id => .inl (hcreate.frame id nofun)]
        exact .nil
      | some metadata =>
        rw [hcreate.newlyPublished_eq]
        exact pairwise_singleton _ _
    · exact fun e hentry e' hentry' => hnew e' hentry' ▸ hbelow e hentry
    · intro e hentry
      refine ⟨generation, hpersisted, ?_⟩
      rcases mem_append.1 hentry with hentry | hentry
      · exact (hbelow e hentry).le
      · exact (hnew e hentry).le
    · intro first hfirst
      obtain ⟨⟨before, hpre, hle⟩, hall⟩ := h.ahead first hfirst
      obtain ⟨legacyIds, hnext⟩ := hcreate.next
      have hlt : first < generation := by
        rw [(nextGeneration_eq_ok hnext).1 before hpre]
        exact Nat.lt_succ_of_le hle
      refine ⟨⟨generation, hpersisted, hlt.le⟩, fun e hentry => ?_⟩
      rcases mem_append.1 hentry with hentry | hentry
      · exact hall e hentry
      · exact hnew e hentry ▸ hlt

theorem ordered_run (store : SnapshotStore) (w₀ : StoreWorld) (events : List StoreEvent) :
    Ordered store w₀ (SnapshotHistory.run store w₀ events) := by
  have hstart : Ordered store w₀ ⟨w₀, []⟩ :=
    ⟨.nil, nofun, fun first hfirst => ⟨⟨first, hfirst, le_rfl⟩, nofun⟩, fun _ _ => .inl⟩
  refine foldl_invariant (fun h event hord => ?_) hstart events
  have hres : Ordered store w₀ ⟨h.world.resume event, h.log⟩ :=
    ⟨hord.increasing, hord.kept, hord.ahead, hord.listed⟩
  exact hres.advance (event.advances store h.world)

/-- The generation of a new snapshot is greater than those of all that are there. -/
theorem StoreEvent.lt_newlyPublished (event : StoreEvent) {id : Bytes}
    (hpub : Published store w id generation) :
    ∀ e ∈ newlyPublished store w (event.run store w), generation < e.2 := by
  intro e hentry
  obtain ⟨-, hkept⟩ | ⟨next, new, hcreate⟩ := event.advances store w
  · have hnil : newlyPublished store w (event.run store w) = [] := newlyPublished_eq_nil hkept
    rw [hnil] at hentry
    cases hentry
  · obtain ⟨legacyIds, hnext⟩ := hcreate.next
    have hres : Published store (w.resume event) id generation := by
      obtain ⟨snap, hload, hmeta⟩ := hpub
      exact ⟨snap, (loadSnapshot_congr store fun _ _ => rfl).trans hload, hmeta⟩
    rw [hcreate.generation_eq e hentry]
    exact (nextGeneration_eq_ok hnext).2 id generation hres

/-- A creation that returns has published what it returns. -/
theorem newlyPublished_of_result {event : StoreEvent} {req : SnapshotRequest}
    {snap : ConfigSnapshot} (hop : event.operation = .create req)
    (hres : (snapshotSerializedConfig store req (w.resume event) event.budget).result =
      some (.ok snap)) :
    newlyPublished store w (event.run store w) = [(snap.id, snap.metadata.generation)] := by
  obtain ⟨hid, hcreate⟩ := wp_result (snapshotSerializedConfig_spec req _) hres
  rw [hid, StoreEvent.run, hop]
  exact hcreate.newlyPublished_eq

end Runs

/-- **However the creations and prunes of a run stop, generations increase strictly in the order of
publication, after the one that was kept at first; every snapshot that was not there before is in
that order; and a new one has a greater generation than all that are there.  A store whose kept
generation is behind one of its snapshots does not verify, and a creation on it only fails.** -/
theorem snapshot_generations (store : SnapshotStore) :
    (∀ w₀ events, let h := SnapshotHistory.run store w₀ events
      h.log.Pairwise (fun first second => first.2 < second.2) ∧
      (∀ first, persistedGeneration store w₀ = .ok (some first) → ∀ entry ∈ h.log,
        first < entry.2) ∧
      (∀ id generation, Published store h.world id generation →
        metadataGeneration store w₀ id = some generation ∨ (id, generation) ∈ h.log) ∧
      (∀ id id' generation, (id, generation) ∈ h.log → (id', generation) ∈ h.log → id = id') ∧
      ∀ event,
        (∀ id generation, Published store h.world id generation →
          ∀ entry ∈ newlyPublished store h.world (event.run store h.world), generation < entry.2) ∧
        ∀ request snapshot, event.operation = .create request →
          (snapshotSerializedConfig store request (h.world.resume event) event.budget).result =
            some (.ok snapshot) →
          (h.step store event).log = h.log ++ [(snapshot.id, snapshot.metadata.generation)]) ∧
    ∀ w persisted id generation, persistedGeneration store w = .ok (some persisted) →
      Published store w id generation → persisted < generation →
      (∃ e, verifyGenerationState store w = .error e) ∧
      ∀ request n, ∃ e m, snapshotSerializedConfig store request w n = .error e w m := by
  refine ⟨fun w₀ events => ?_, fun w persisted id generation hpersisted hpub hbehind => ?_⟩
  · intro h
    have hord := ordered_run store w₀ events
    refine ⟨hord.increasing, fun first hfirst => (hord.ahead first hfirst).2, ?_, ?_, ?_⟩
    · exact fun id generation hpub =>
        hord.listed id generation hpub.metadataGeneration_eq
    · intro id id' generation hmem hmem'
      have hnod : (h.log.map Prod.snd).Nodup :=
        pairwise_map.2 (hord.increasing.imp fun hlt => hlt.ne)
      exact (Prod.mk.inj (inj_on_of_nodup_map hnod hmem hmem' rfl)).1
    · refine fun event => ⟨fun id generation => event.lt_newlyPublished, ?_⟩
      intro request snapshot hop hres
      exact congrArg (h.log ++ ·) (newlyPublished_of_result hop hres)
  · obtain ⟨hnext, hver⟩ := nextGeneration_of_behind hpersisted hpub hbehind
    refine ⟨hver, fun request n => ?_⟩
    have hn := snapshotSerializedConfig_of_error request hnext n
    cases hrun : snapshotSerializedConfig store request w n with
    | ok snapshot w' m => rw [hrun] at hn; exact hn.elim
    | crashed w' => rw [hrun] at hn; exact hn.elim
    | error e w' m =>
      rw [hrun] at hn
      exact ⟨e, m, by rw [show w' = w from hn]⟩

/-- The id of a first snapshot. -/
def firstId : Bytes := newSnapshotId (10, 0) 1 1

/-- The id of a third one. -/
def thirdId : Bytes := newSnapshotId (30, 0) 3 1

/-- A store with the encodings that the run needs. -/
def countedStore : SnapshotStore :=
  keylessStore
    { metadata := tableCodec
        [(⟨firstId, 10, none, 1, none⟩, ascii "m1"),
          (⟨thirdId, 30, some firstId, 3, none⟩, ascii "m3")] (by decide +kernel)
      manifest := noCodec _
      generation := tableCodec
        [(⟨1, none, none⟩, ascii "g1"), (⟨2, none, none⟩, ascii "g2"),
          (⟨3, none, none⟩, ascii "g3")]
        (by decide +kernel)
      pruneBoundaries := noCodec _
      pruneRecords := noCodec _
      persistedRuntimeState := noCodec _
      runtimeState := noCodec _ }

/-- A request at a time. -/
def countedRequest (seconds : ℕ) : SnapshotRequest := ⟨ascii "c", none, some (seconds, 0)⟩

/-- The second creation is cut off when it has taken its generation. -/
def countedEvents : List StoreEvent :=
  [⟨.create (countedRequest 10), 1, 0, [], 100⟩, ⟨.create (countedRequest 20), 2, 0, [], 7⟩,
    ⟨.create (countedRequest 30), 3, 0, [], 100⟩]

theorem snapshot_generations_counted :
    let h := SnapshotHistory.run countedStore ⟨∅, ∅, 0, 0, []⟩ countedEvents
    let w := h.world.set generationPath (some (ascii "g1"))
    (h.log = [(firstId, 1), (thirdId, 3)] ∧
      h.log.Pairwise fun first second => first.2 < second.2) ∧
    (persistedGeneration countedStore w = .ok (some 1) ∧ Published countedStore w thirdId 3 ∧
      (∃ e, verifyGenerationState countedStore w = .error e) ∧
      ∃ e m, snapshotSerializedConfig countedStore (countedRequest 40) w 100 = .error e w m) := by
  intro h w
  have hlog : h.log = [(firstId, 1), (thirdId, 3)] := by decide +kernel
  have hpersisted : persistedGeneration countedStore w = .ok (some 1) := by decide +kernel
  have hload : (loadSnapshot countedStore w thirdId).map (·.metadata.generation) = .ok 3 := by
    decide +kernel
  obtain ⟨snap, hsnap, hgen⟩ := map_eq_ok.1 hload
  have hpub : Published countedStore w thirdId 3 :=
    ⟨snap, hsnap, by decide +kernel, hgen⟩
  obtain ⟨hruns, href⟩ := snapshot_generations countedStore
  obtain ⟨hver, hcreate⟩ := href w 1 thirdId 3 hpersisted hpub (by decide)
  exact ⟨⟨hlog, (hruns _ countedEvents).1⟩, hpersisted, hpub, hver, hcreate _ 100⟩

end Fluxheim.Snapshot
