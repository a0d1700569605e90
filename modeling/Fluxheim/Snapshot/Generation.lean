import Fluxheim.Snapshot.FileOps

/-!
# Generations and the creation of snapshots

Every snapshot has a generation.  The last one that was given out is kept in a file of its own,
which is written before the snapshot is; it must not be behind the snapshots that are there.  The
files of a snapshot are published one by one; if one cannot be, those that were are removed.
-/

namespace Fluxheim.Snapshot

open Ascii Fallible Crash Crash.Prog List

section State

variable (store : SnapshotStore)

/-- The file of the last generation. -/
def encodeGenerationState (generation : ℕ) : Except SnapshotError Bytes := do
  let sig ← sealState store.integrity GENERATION_MAC_LABEL (u64BeBytes generation)
  let raw ← okOr (store.toml.generation.encode ⟨generation, sig.1, sig.2⟩) .encode
  if MAX_GENERATION_STATE_BYTES < raw.length then .error .generationStateInvalid else .ok raw

/-- The last generation, from its file. -/
def decodeGenerationState (raw : Bytes) : Except SnapshotError ℕ := do
  let state ← okOr (store.toml.generation.decode raw) .generationStateInvalid
  if !opensState store.integrity GENERATION_MAC_LABEL (u64BeBytes state.generation)
      (state.keyId, state.hmacSha256) then .error .generationStateInvalid
  else pure state.generation

/-- The generation that is kept, if there is one. -/
def persistedGeneration (w : StoreWorld) : Except SnapshotError (Option ℕ) := do
  let raw? ← readOptionalWithLimit w generationPath MAX_GENERATION_STATE_BYTES
  match raw? with
  | none => pure none
  | some raw => (decodeGenerationState store raw).map some

end State

/-- The greatest generation of the snapshots, and the manifests to rewrite. -/
structure GenerationObservation where
  maximum : ℕ
  legacyIds : List Bytes
  allowMissingState : Bool

/-- Every error but one of the digests is the same. -/
def generationScanError : SnapshotError → SnapshotError
  | .cryptoProvider message => .cryptoProvider message
  | _ => .generationStateInvalid

/-- What stands before an ending. -/
def stripSuffix (suffix x : Bytes) : Option Bytes :=
  if suffix.isSuffixOf x then some (x.take (x.length - suffix.length)) else none

section Observe

variable (store : SnapshotStore) (w : StoreWorld)

/-- The metadata under a name, which must be well-formed. -/
def scanMetadata (id : Bytes) : Except SnapshotError SnapshotMetadata := do
  (validateSnapshotId id).mapError fun _ => .generationStateInvalid
  let raw ← readWithLimit w (metadataPath id) MAX_SNAPSHOT_METADATA_BYTES
  let metadata ← okOr (store.toml.metadata.decode raw) .generationStateInvalid
  (validateSnapshotMetadata metadata id).mapError fun _ => .generationStateInvalid
  pure metadata

/-- `observed_unverified_generation`, over the names of the directory. -/
def observedUnverifiedGeneration : List Bytes → ℕ → Except SnapshotError ℕ
  | [], maximum => .ok maximum
  | name :: names, maximum =>
    match stripSuffix (ascii ".meta.toml") name with
    | none => observedUnverifiedGeneration names maximum
    | some id => do
        let metadata ← scanMetadata store w id
        observedUnverifiedGeneration names (max maximum metadata.generation)

/-- The files that a manifest is checked against. -/
def manifestFiles (id : Bytes) : Except SnapshotError (Bytes × Bytes × SnapshotMetadata) := do
  let config ← readWithLimit w (configPath id) MAX_SNAPSHOT_FILE_BYTES
  let metadataRaw ← readWithLimit w (metadataPath id) MAX_SNAPSHOT_METADATA_BYTES
  let metadata ← okOr (store.toml.metadata.decode metadataRaw) .decode
  validateSnapshotMetadata metadata id
  pure (config, metadataRaw, metadata)

/-- The generation of a manifest that has none of its own. -/
def verifyLegacyGeneration (id : Bytes) (key : SnapshotIntegrityKey)
    (manifest : SnapshotIntegrityManifest) : Except SnapshotError ℕ := do
  let (config, metadataRaw, metadata) ← manifestFiles store w id
  key.verify id config metadataRaw metadata.generation manifest
  pure metadata.generation

/-- The generation of one snapshot, and whether its manifest is an old one. -/
def authenticatedGeneration (key : SnapshotIntegrityKey) (id : Bytes) :
    Except SnapshotError (ℕ × Bool) := do
  (validateSnapshotId id).mapError fun _ => .generationStateInvalid
  let raw ← readWithLimit w (integrityPath id) MAX_INTEGRITY_MANIFEST_BYTES
  let manifest ← okOr (store.toml.manifest.decode raw) .generationStateInvalid
  match manifest with
  | .v2 witness => do
      let generation ← (key.verifyGenerationWitness id witness).mapError generationScanError
      pure (generation, false)
  | .v1 _ => do
      let generation ← verifyLegacyGeneration store w id key manifest
      pure (generation, true)

/-- The loop of `observe_authenticated_generations`, with the number of snapshots so far. -/
def authenticatedLoop (key : SnapshotIntegrityKey) :
    List Bytes → ℕ → List Bytes → ℕ → Except SnapshotError GenerationObservation
  | [], maximum, legacyIds, count =>
    .ok ⟨maximum, legacyIds, count != 0 && legacyIds.length == count⟩
  | name :: names, maximum, legacyIds, count =>
    match snapshotStem name with
    | none => authenticatedLoop key names maximum legacyIds count
    | some id => do
        let (generation, legacy) ← authenticatedGeneration store w key id
        authenticatedLoop key names (max maximum generation)
          (if legacy then legacyIds ++ [id] else legacyIds) (count + 1)

/-- The greatest generation, by signed manifests if there is a key. -/
def observeGenerations : Except SnapshotError GenerationObservation :=
  match store.integrity with
  | some key => authenticatedLoop store w key w.configs.keys 0 [] 0
  | none => do
      let maximum ← observedUnverifiedGeneration store w w.configs.keys 0
      pure ⟨maximum, [], false⟩

/-- The generation that the next one comes after. -/
def currentGeneration (observation : GenerationObservation) : Option ℕ → Except SnapshotError ℕ
  | some generation => .ok generation
  | none =>
    if observation.maximum = 0 then .ok 0
    else if observation.allowMissingState then .ok observation.maximum
    else .error .generationStateInvalid

/-- What `allocate_generation` decides before it writes. -/
def nextGeneration : Except SnapshotError (ℕ × List Bytes) := do
  let observation ← observeGenerations store w
  let persisted ← persistedGeneration store w
  let current ← currentGeneration observation persisted
  if current < observation.maximum then .error .generationStateInvalid
  else if 2 ^ 64 ≤ current + 1 then .error .generationExhausted
  else pure (current + 1, observation.legacyIds)

/-- The kept generation is not behind. -/
def verifyGenerationState : Except SnapshotError Unit := do
  let observation ← observeGenerations store w
  let persisted ← persistedGeneration store w
  match persisted with
  | none =>
    if observation.maximum = 0 || observation.allowMissingState then pure ()
    else .error .generationStateInvalid
  | some generation =>
    if generation < observation.maximum then .error .generationStateInvalid else pure ()

/-- The manifest that an old one is replaced with. -/
def migratedManifest (key : SnapshotIntegrityKey) (id : Bytes) :
    Except SnapshotError (Option Bytes) := do
  let raw ← readWithLimit w (integrityPath id) MAX_INTEGRITY_MANIFEST_BYTES
  let manifest ← okOr (store.toml.manifest.decode raw) .decode
  match manifest with
  | .v2 _ => pure none
  | .v1 _ => do
      let (config, metadataRaw, metadata) ← manifestFiles store w id
      key.verify id config metadataRaw metadata.generation manifest
      let witness ← key.manifest id config metadataRaw metadata.generation
      let raw ← okOr (store.toml.manifest.encode witness) .encode
      if MAX_INTEGRITY_MANIFEST_BYTES < raw.length then .error .generationStateInvalid
      else pure (some raw)

/-- There is room for one more. -/
def ensureStoreCapacity : Except SnapshotError Unit :=
  if MAX_SNAPSHOT_STORE_ENTRIES ≤ (w.configs.keys.filterMap snapshotStem).length then
    .error (.io .storageFull)
  else .ok ()

end Observe

section Programs

variable (store : SnapshotStore)

/-- A manifest is rewritten in the second version. -/
def migrateLegacyManifest (key : SnapshotIntegrityKey) (id : Bytes) : StoreProg Unit := do
  match ← inspect fun w => migratedManifest store w key id with
  | none => pure ()
  | some raw => writeAtomically (integrityPath id) raw false

/-- These manifests, one by one. -/
def migrateLegacyManifests (key : SnapshotIntegrityKey) : List Bytes → StoreProg Unit
  | [] => pure ()
  | id :: ids => do
      migrateLegacyManifest store key id
      migrateLegacyManifests key ids

/-- `allocate_generation_unlocked`. -/
def allocateGeneration : StoreProg ℕ := do
  let (next, legacyIds) ← inspect fun w => nextGeneration store w
  let raw ← inspect fun _ => encodeGenerationState store next
  writeAtomically generationPath raw false
  match store.integrity with
  | some key => migrateLegacyManifests store key legacyIds
  | none => pure ()
  pure next

/-- A number with at least the given number of digits. -/
def paddedDecimal (digits n : ℕ) : Bytes :=
  List.replicate (digits - (decimal n).length) 48 ++ decimal n

/-- `new_snapshot_id`, from the time in seconds and nanoseconds. -/
def newSnapshotId (now : ℕ × ℕ) (generation sequence : ℕ) : Bytes :=
  115 :: decimal now.1 ++ 45 :: paddedDecimal 9 now.2 ++ 45 :: paddedDecimal 20 generation ++
    45 :: paddedDecimal 20 sequence

/-- The drop of a transaction that is not committed: its files, the last one first. -/
def dropTransaction : List StorePath → StoreProg Unit
  | [] => pure ()
  | path :: paths => do
      let _ ← attempt (removeFile path)
      dropTransaction paths

/-- The files of the transaction afterwards, and the error if there is
one.  A file that may not be durable is one of them. -/
def publishTransactionFile (path : StorePath) (contents : Bytes) (tracked : List StorePath) :
    StoreProg (List StorePath × Option SnapshotError) := do
  match ← attempt (writeAtomically path contents true) with
  | .ok () => pure (path :: tracked, none)
  | .error (.publishedButNotDurable path') =>
    pure (path :: tracked, some (.publishedButNotDurable path'))
  | .error e => pure (tracked, some e)

/-- The files of a snapshot are published one after the other, or not at all. -/
def publishTransaction : List (StorePath × Except SnapshotError Bytes) → List StorePath →
    StoreProg Unit
  | [], _ => pure ()
  | (_, .error e) :: _, tracked => do
      dropTransaction tracked
      Prog.fail e
  | (path, .ok contents) :: files, tracked => do
      match ← publishTransactionFile path contents tracked with
      | (tracked, none) => publishTransaction files tracked
      | (tracked, some e) => do
          dropTransaction tracked
          Prog.fail e

/-- The manifest of a new snapshot. -/
def newManifest (key : SnapshotIntegrityKey) (metadata : SnapshotMetadata)
    (rawConfig rawMetadata : Bytes) : Except SnapshotError Bytes := do
  let manifest ← key.manifest metadata.id rawConfig rawMetadata metadata.generation
  okOr (store.toml.manifest.encode manifest) .encode

/-- The files of a new snapshot, in the order in which they are published. -/
def transactionFiles (metadata : SnapshotMetadata) (rawConfig rawMetadata : Bytes) :
    List (StorePath × Except SnapshotError Bytes) :=
  (configPath metadata.id, .ok rawConfig) :: (metadataPath metadata.id, .ok rawMetadata) ::
    match store.integrity with
    | some key =>
      [(integrityPath metadata.id, newManifest store key metadata rawConfig rawMetadata)]
    | none => []

/-- The status of a snapshot that is created. -/
def newIntegrityStatus : SnapshotIntegrityStatus :=
  if store.integrity.isSome then .authenticated else .unverified

/-- A snapshot becomes the current one. -/
def setCurrent (id : Bytes) : StoreProg Unit := do
  inspect fun _ => validateSnapshotId id
  inspect fun w =>
    if w.read (configPath id) = none then .error (.snapshotNotFound id) else .ok ()
  writeAtomically currentPath (id ++ [10]) false

/-- What a new snapshot is made from: the text of the configuration, the message, and the clock. -/
structure SnapshotRequest where
  rawConfig : Bytes
  message : Option Bytes
  clock : Option (ℕ × ℕ)

/-- The creation of a snapshot. -/
def snapshotSerializedConfig (request : SnapshotRequest) : StoreProg ConfigSnapshot := do
  let message ← inspect fun _ => snapshotMessage request.message
  inspect fun _ =>
    if MAX_SNAPSHOT_FILE_BYTES < request.rawConfig.length then .error (.io .invalidInput)
    else .ok ()
  inspect fun w => ensureStoreCapacity w
  let parentId ← inspect fun w => currentId w
  let generation ← allocateGeneration store
  let created ← inspect fun _ => okOr request.clock .invalidSystemClock
  let sequence ← uniqueSequence
  let id := newSnapshotId created generation sequence
  let metadata : SnapshotMetadata := ⟨id, created.1, parentId, generation, message⟩
  let rawMetadata ← inspect fun _ => okOr (store.toml.metadata.encode metadata) .encode
  publishTransaction (transactionFiles store metadata request.rawConfig rawMetadata) []
  mapError (fun _ => .snapshotPublishedButCurrentUpdateFailed id) (setCurrent id)
  pure ⟨id, configPath id, metadataPath id, metadata, newIntegrityStatus store⟩

end Programs

/-! ### Every published snapshot is observed -/

/-- The snapshot loads, and has metadata, which say this generation. -/
def Published (store : SnapshotStore) (w : StoreWorld) (id : Bytes) (generation : ℕ) : Prop :=
  ∃ snapshot, loadSnapshot store w id = .ok snapshot ∧ w.read (metadataPath id) ≠ none ∧
    snapshot.metadata.generation = generation

section Observed

variable {store : SnapshotStore} {w : StoreWorld} {id : Bytes}

theorem stripSuffix_append (suffix x : Bytes) : stripSuffix suffix (x ++ suffix) = some x := by
  have hsuf : suffix.isSuffixOf (x ++ suffix) = true :=
    isSuffixOf_iff_suffix.2 (suffix_append x suffix)
  rw [stripSuffix, if_pos hsuf, length_append, Nat.add_sub_cancel, take_left]

theorem stripSuffix_eq_some {suffix x y : Bytes} (h : stripSuffix suffix x = some y) :
    x = y ++ suffix := by
  unfold stripSuffix at h
  split_ifs at h with hsuf
  obtain ⟨z, rfl⟩ := isSuffixOf_iff_suffix.1 hsuf
  rw [length_append, Nat.add_sub_cancel, take_left] at h
  rw [Option.some.inj h]

variable {ns legacyIds : List Bytes}

theorem le_observedUnverifiedGeneration {m maximum : ℕ}
    (h : observedUnverifiedGeneration store w ns m = .ok maximum) :
    m ≤ maximum ∧ ∀ name ∈ ns, stripSuffix (ascii ".meta.toml") name = some id →
      ∃ metadata, scanMetadata store w id = .ok metadata ∧ metadata.generation ≤ maximum := by
  induction ns generalizing m with
  | nil => exact ⟨(Except.ok.inj h).le, nofun⟩
  | cons first ns ih =>
    rw [observedUnverifiedGeneration] at h
    cases hfirst : stripSuffix (ascii ".meta.toml") first with
    | none =>
      rw [hfirst] at h
      obtain ⟨hm, hall⟩ := ih h
      refine ⟨hm, forall_mem_cons.2 ⟨fun hid => ?_, hall⟩⟩
      rw [hfirst] at hid
      cases hid
    | some firstId =>
      rw [hfirst] at h
      obtain ⟨metadata, hscan, h⟩ := bind_eq_ok.1 h
      obtain ⟨hm, hall⟩ := ih h
      refine ⟨(le_max_left _ _).trans hm, forall_mem_cons.2 ⟨fun hid => ?_, hall⟩⟩
      obtain rfl := Option.some.inj (hfirst.symm.trans hid)
      exact ⟨metadata, hscan, (le_max_right _ _).trans hm⟩

variable {obs : GenerationObservation}

theorem le_authenticatedLoop {key : SnapshotIntegrityKey} {m count : ℕ}
    (h : authenticatedLoop store w key ns m legacyIds count = .ok obs) :
    m ≤ obs.maximum ∧ ∀ name ∈ ns, snapshotStem name = some id →
      ∃ generation legacy, authenticatedGeneration store w key id = .ok (generation, legacy) ∧
        generation ≤ obs.maximum := by
  induction ns generalizing m legacyIds count with
  | nil =>
    obtain rfl := Except.ok.inj h
    exact ⟨le_rfl, nofun⟩
  | cons first ns ih =>
    rw [authenticatedLoop] at h
    cases hfirst : snapshotStem first with
    | none =>
      rw [hfirst] at h
      obtain ⟨hm, hall⟩ := ih h
      refine ⟨hm, forall_mem_cons.2 ⟨fun hid => ?_, hall⟩⟩
      rw [hfirst] at hid
      cases hid
    | some firstId =>
      rw [hfirst] at h
      obtain ⟨⟨generation, legacy⟩, hscan, h⟩ := bind_eq_ok.1 h
      obtain ⟨hm, hall⟩ := ih h
      refine ⟨(le_max_left _ _).trans hm, forall_mem_cons.2 ⟨fun hid => ?_, hall⟩⟩
      obtain rfl := Option.some.inj (hfirst.symm.trans hid)
      exact ⟨generation, legacy, hscan, (le_max_right _ _).trans hm⟩

/-- With a key, a snapshot that loads has a manifest that is right. -/
theorem verify_of_loadSnapshot {key : SnapshotIntegrityKey} {snap : ConfigSnapshot}
    (hkey : store.integrity = some key) (h : loadSnapshot store w id = .ok snap) :
    ∃ rawM manifest rawC rawMd, w.read (integrityPath id) = some rawM ∧
      store.toml.manifest.decode rawM = some manifest ∧
      w.read (metadataPath id) = some rawMd ∧
      key.verify id rawC rawMd snap.metadata.generation manifest = .ok () := by
  have hloads := loads_of_loadSnapshot h
  obtain ⟨⟨⟩, -, h⟩ := bind_eq_ok.1 h
  obtain ⟨-, h⟩ := ite_error_eq_ok.1 h
  obtain ⟨rawMd?, hmeta, h⟩ := bind_eq_ok.1 h
  obtain ⟨integrity, hint, -⟩ := bind_eq_ok.1 h
  unfold verifyIntegrity verifyIntegrityBytes at hint
  rw [hkey] at hint
  obtain ⟨rawMd, hsome, hint⟩ := bind_eq_ok.1 hint
  obtain rfl := okOr_eq_ok.1 hsome
  obtain ⟨rawC, -, hint⟩ := bind_eq_ok.1 hint
  obtain ⟨verified, hsome, hint⟩ := bind_eq_ok.1 hint
  obtain rfl := Option.some.inj (okOr_eq_ok.1 hsome)
  obtain ⟨rawM?, hman, hint⟩ := bind_eq_ok.1 hint
  obtain ⟨rawM, hsome, hint⟩ := bind_eq_ok.1 hint
  rw [okOr_eq_ok.1 hsome] at hman
  obtain ⟨manifest, hdec, hint⟩ := bind_eq_ok.1 hint
  obtain ⟨metadata, hdec', hint⟩ := bind_eq_ok.1 hint
  obtain ⟨⟨⟩, -, hint⟩ := bind_eq_ok.1 hint
  obtain ⟨⟨⟩, hver, -⟩ := bind_eq_ok.1 hint
  have hread := (readOptionalWithLimit_eq_some hmeta).1
  rw [hloads.metadata_eq hread (okOr_eq_ok.1 hdec')] at hver
  exact ⟨rawM, manifest, rawC, rawMd,
    (readOptionalWithLimit_eq_some hman).1, okOr_eq_ok.1 hdec, hread, hver⟩

/-- No published snapshot has a greater generation than the one that is observed. -/
theorem Published.le_maximum {generation : ℕ} (hpub : Published store w id generation)
    (h : observeGenerations store w = .ok obs) : generation ≤ obs.maximum := by
  obtain ⟨snap, hload, hmeta, rfl⟩ := hpub
  have hloads := loads_of_loadSnapshot hload
  unfold observeGenerations at h
  cases hkey : store.integrity with
  | none =>
    rw [hkey] at h
    obtain ⟨mx, hmax, h⟩ := bind_eq_ok.1 h
    obtain rfl := Except.ok.inj h
    obtain ⟨metadata, hscan, hle⟩ := (le_observedUnverifiedGeneration hmax).2 _
      (mem_keys_of_read hmeta) (stripSuffix_append _ id)
    obtain ⟨⟨⟩, -, hscan⟩ := bind_eq_ok.1 hscan
    obtain ⟨raw, hraw, hscan⟩ := bind_eq_ok.1 hscan
    obtain ⟨metadata', hdec, hscan⟩ := bind_eq_ok.1 hscan
    obtain ⟨⟨⟩, -, hscan⟩ := bind_eq_ok.1 hscan
    rwa [← Except.ok.inj hscan,
      hloads.metadata_eq (readWithLimit_eq_ok hraw) (okOr_eq_ok.1 hdec)] at hle
  | some key =>
    rw [hkey] at h
    obtain ⟨g, legacy, hscan, hle⟩ := (le_authenticatedLoop h).2 _
      (mem_keys_of_read hloads.config) (snapshotStem_configName hloads.valid)
    obtain ⟨rawM, manifest, rawC, rawMd, hread, hdec, hreadMetadata, hver⟩ :=
      verify_of_loadSnapshot hkey hload
    obtain ⟨⟨⟩, -, hscan⟩ := bind_eq_ok.1 hscan
    obtain ⟨raw, hraw, hscan⟩ := bind_eq_ok.1 hscan
    obtain ⟨manifest', hdec', hscan⟩ := bind_eq_ok.1 hscan
    have hraw := Option.some.inj ((readWithLimit_eq_ok hraw).symm.trans hread)
    have hman := (okOr_eq_ok.1 hdec').symm.trans (hraw ▸ hdec)
    rw [Option.some.inj hman] at hscan
    cases manifest with
    | v2 witness =>
      obtain ⟨g', hwit, hscan⟩ := bind_eq_ok.1 hscan
      have hsame := (mapError_eq_ok.1 hwit).symm.trans
        (key.verifyGenerationWitness_of_verify hver)
      rwa [← (Prod.mk.inj (Except.ok.inj hscan)).1, Except.ok.inj hsame] at hle
    | v1 common =>
      obtain ⟨g', hleg, hscan⟩ := bind_eq_ok.1 hscan
      obtain ⟨files, hfiles, hleg⟩ := bind_eq_ok.1 hleg
      obtain ⟨config, -, hfiles⟩ := bind_eq_ok.1 hfiles
      obtain ⟨metadataRaw, hmet, hfiles⟩ := bind_eq_ok.1 hfiles
      obtain ⟨metadata, hdecoded, hfiles⟩ := bind_eq_ok.1 hfiles
      obtain ⟨⟨⟩, -, hfiles⟩ := bind_eq_ok.1 hfiles
      obtain rfl := Except.ok.inj hfiles
      obtain ⟨⟨⟩, -, hleg⟩ := bind_eq_ok.1 hleg
      have hsame := hloads.metadata_eq (readWithLimit_eq_ok hmet)
        (okOr_eq_ok.1 hdecoded)
      rwa [← (Prod.mk.inj (Except.ok.inj hscan)).1, ← Except.ok.inj hleg, hsame] at hle

/-- The generation that was written is read back. -/
theorem persistedGeneration_of_read {generation : ℕ} {raw : Bytes}
    (henc : encodeGenerationState store generation = .ok raw)
    (hread : w.read generationPath = some raw) :
    persistedGeneration store w = .ok (some generation) := by
  obtain ⟨sig, hseal, henc⟩ := bind_eq_ok.1 henc
  obtain ⟨raw', hraw, henc⟩ := bind_eq_ok.1 henc
  obtain ⟨hlen, henc⟩ := ite_error_eq_ok.1 henc
  obtain rfl := Except.ok.inj henc
  have hraw := okOr_eq_ok.1 hraw
  have hfile : readOptionalWithLimit w generationPath MAX_GENERATION_STATE_BYTES =
      .ok (some raw') := by
    rw [readOptionalWithLimit, readWithLimit, hread]
    dsimp only
    rw [if_neg hlen, store.toml.generation.utf8_encode hraw]
    rfl
  unfold persistedGeneration decodeGenerationState
  rw [hfile, ok_bind]
  dsimp only
  rw [store.toml.generation.decode_encode hraw, okOr_some, ok_bind, opensState_sealState hseal]
  rfl

theorem persistedGeneration_congr {w' : StoreWorld}
    (h : w'.read generationPath = w.read generationPath) :
    persistedGeneration store w' = persistedGeneration store w := by
  unfold persistedGeneration
  rw [readOptionalWithLimit_congr h]

/-- The next generation comes after the one that is kept and after all that are observed. -/
theorem nextGeneration_eq_ok {generation : ℕ}
    (h : nextGeneration store w = .ok (generation, legacyIds)) :
    (∀ kept, persistedGeneration store w = .ok (some kept) →
      generation = kept + 1) ∧
    ∀ id g, Published store w id g → g < generation := by
  obtain ⟨obs, hobs, h⟩ := bind_eq_ok.1 h
  obtain ⟨kept?, hkept?, h⟩ := bind_eq_ok.1 h
  obtain ⟨cur, hcur, h⟩ := bind_eq_ok.1 h
  obtain ⟨hbehind, h⟩ := ite_error_eq_ok.1 h
  obtain ⟨-, h⟩ := ite_error_eq_ok.1 h
  obtain ⟨rfl, -⟩ := Prod.mk.inj (Except.ok.inj h)
  constructor
  · intro kept hkept
    rw [Except.ok.inj (hkept?.symm.trans hkept)] at hcur
    rw [Except.ok.inj hcur]
  · intro id g hpub
    have hle := hpub.le_maximum hobs
    omega

/-- **A kept generation that is behind a published snapshot is refused.** -/
theorem nextGeneration_of_behind {kept generation : ℕ}
    (hkept : persistedGeneration store w = .ok (some kept))
    (hpub : Published store w id generation) (hbehind : kept < generation) :
    (∃ e, nextGeneration store w = .error e) ∧ ∃ e, verifyGenerationState store w = .error e := by
  unfold nextGeneration verifyGenerationState
  cases hobs : observeGenerations store w with
  | error e => exact ⟨⟨e, rfl⟩, e, rfl⟩
  | ok obs =>
    have hlt : kept < obs.maximum :=
      lt_of_lt_of_le hbehind (hpub.le_maximum hobs)
    rw [ok_bind, ok_bind, hkept, ok_bind, ok_bind, currentGeneration, ok_bind]
    dsimp only
    rw [if_pos hlt, if_pos hlt]
    exact ⟨⟨_, rfl⟩, _, rfl⟩

end Observed

end Fluxheim.Snapshot
