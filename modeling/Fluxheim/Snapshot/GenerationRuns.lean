import Fluxheim.Snapshot.Generation

/-!
# What a creation does

A creation may be cut off before any of its file operations, or have any of them fail.  In every
state in which it can stop, it has taken no generation, or the next one, and has published metadata
only under it.
-/

namespace Fluxheim.Snapshot

open Ascii Fallible Crash Crash.Prog List

/-! ### The states of a creation -/

/-- The kept generation and all metadata are as they were. -/
structure Keeps (w w' : StoreWorld) : Prop where
  generation : w'.read generationPath = w.read generationPath
  metadata : ∀ id, w'.read (metadataPath id) = w.read (metadataPath id)

/-- The next generation is taken, and the metadata of the new snapshot may be published. -/
structure Creating (store : SnapshotStore) (w : StoreWorld) (generation : ℕ)
    (new : Option SnapshotMetadata) (w' : StoreWorld) : Prop where
  next : ∃ legacyIds, nextGeneration store w = .ok (generation, legacyIds)
  kept : ∃ raw, encodeGenerationState store generation = .ok raw ∧
    w'.read generationPath = some raw
  frame : ∀ id, (∀ metadata ∈ new, metadata.id ≠ id) →
    w'.read (metadataPath id) = w.read (metadataPath id)
  published : ∀ metadata ∈ new, metadata.generation = generation ∧
    w.read (metadataPath metadata.id) = none ∧
    ∃ raw, store.toml.metadata.encode metadata = some raw ∧
      w'.read (metadataPath metadata.id) = some raw

/-- A creation that stops has no generation yet, or has taken one. -/
def Stage (store : SnapshotStore) (w w' : StoreWorld) : Prop :=
  Keeps w w' ∨ ∃ generation new, Creating store w generation new w'

section Stages

variable {store : SnapshotStore} {w w' w'' : StoreWorld} {generation : ℕ}
  {new : Option SnapshotMetadata} {metadata : SnapshotMetadata}

theorem not_temporary_metadataPath (id : Bytes) : ¬ Temporary (metadataPath id) :=
  @not_temporary_of_mem_snapshotPaths _ id (by simp [snapshotPaths])

theorem not_temporary_integrityPath (id : Bytes) : ¬ Temporary (integrityPath id) :=
  @not_temporary_of_mem_snapshotPaths _ id (by simp [snapshotPaths])

theorem Keeps.refl (w : StoreWorld) : Keeps w w := ⟨rfl, fun _ => rfl⟩

theorem Same.keeps (h : Same w w') : Keeps w w' :=
  ⟨h _ not_temporary_generationPath, fun id => h _ (not_temporary_metadataPath id)⟩

/-- A path that is neither the kept generation nor metadata. -/
structure Aside (path : StorePath) : Prop where
  generation : generationPath ≠ path
  metadata : ∀ id, metadataPath id ≠ path

theorem Sets.keeps {path : StorePath} {text : Option Bytes} (h : Sets w w' path text)
    (hpath : Aside path) : Keeps w w' :=
  ⟨h.frame _ hpath.generation not_temporary_generationPath,
    fun id => h.frame _ (hpath.metadata id) (not_temporary_metadataPath id)⟩

theorem aside_currentPath : Aside currentPath := ⟨by decide, nofun⟩

theorem aside_integrityPath (id : Bytes) : Aside (integrityPath id) :=
  ⟨nofun, fun id' => metadataPath_ne_integrityPath id' id⟩

theorem aside_configPath {id : Bytes} (h : 46 ∉ id) : Aside (configPath id) :=
  ⟨nofun, fun id' => (configPath_ne_metadataPath h id').symm⟩

theorem Creating.keeps (h : Creating store w generation new w') (h' : Keeps w' w'') :
    Creating store w generation new w'' := by
  obtain ⟨raw, henc, hread⟩ := h.kept
  refine ⟨h.next, ⟨raw, henc, h'.generation.trans hread⟩, ?_, ?_⟩
  · exact fun id hid => (h'.metadata id).trans (h.frame id hid)
  · intro metadata hmem
    obtain ⟨hgen, hnew, raw', henc', hread'⟩ := h.published metadata hmem
    exact ⟨hgen, hnew, raw', henc', (h'.metadata _).trans hread'⟩

/-- The metadata of the new snapshot are published. -/
theorem Creating.publish (h : Creating store w generation new w') {raw : Bytes}
    (hnew : new = none ∨ new = some metadata) (hgen : metadata.generation = generation)
    (henc : store.toml.metadata.encode metadata = some raw)
    (hwritten : Written w' w'' (metadataPath metadata.id) raw true) :
    Creating store w generation (some metadata) w'' := by
  have habs : w.read (metadataPath metadata.id) = none := by
    obtain rfl | rfl := hnew
    · rw [← h.frame metadata.id nofun]
      exact hwritten.new rfl
    · exact (h.published metadata rfl).2.1
  obtain ⟨rawGeneration, henc', hread⟩ := h.kept
  refine ⟨h.next, ⟨rawGeneration, henc', ?_⟩, ?_, ?_⟩
  · exact (hwritten.frame generationPath nofun not_temporary_generationPath).trans hread
  · intro id hid
    have hne : id ≠ metadata.id := (hid metadata rfl).symm
    refine (hwritten.frame _ (fun heq => hne (metadataPath_injective heq))
      (not_temporary_metadataPath id)).trans (h.frame id ?_)
    obtain rfl | rfl := hnew
    · exact nofun
    · exact hid
  · rintro metadata' hmem
    obtain rfl := Option.some.inj hmem
    exact ⟨hgen, habs, raw, henc, hwritten.value⟩

/-- They are removed again. -/
theorem Creating.withdraw (h : Creating store w generation new w')
    (hnew : new = none ∨ new = some metadata)
    (hrem : Sets w' w'' (metadataPath metadata.id) none)
    (habs : w.read (metadataPath metadata.id) = none) : Creating store w generation none w'' := by
  obtain ⟨raw, henc, hread⟩ := h.kept
  refine ⟨h.next, ⟨raw, henc, ?_⟩, fun id _ => ?_, nofun⟩
  · exact (hrem.frame generationPath nofun not_temporary_generationPath).trans hread
  · by_cases heq : id = metadata.id
    · rw [heq, hrem.value, habs]
    · refine (hrem.frame _ (fun h => heq (metadataPath_injective h))
        (not_temporary_metadataPath id)).trans (h.frame id ?_)
      obtain rfl | rfl := hnew
      · exact nofun
      · intro metadata' hmem
        obtain rfl := Option.some.inj hmem
        exact fun h => heq h.symm

end Stages

section Programs

variable {store : SnapshotStore} {w w' : StoreWorld} {P : StoreWorld → Prop}

/-- What is said of the kept generation and of metadata only. -/
def Closed (P : StoreWorld → Prop) : Prop := ∀ {w' w''}, P w' → Keeps w' w'' → P w''

/-- A write to another file. -/
theorem wp_writeAside (hP : Closed P) {path : StorePath} (hpath : Aside path)
    (htemp : ¬ Temporary path) (text : Bytes) (cnew : Bool) (h : P w') :
    wp (writeAtomically path text cnew) (fun _ => P) (fun _ => P) P w' := by
  refine wp_writeAtomically htemp
    (fun w'' hsame => ⟨fun _ _ => hP h hsame.keeps, hP h hsame.keeps⟩) fun w'' hwritten => ?_
  have hw'' := hP h (hwritten.toSets.keeps hpath)
  exact ⟨hw'', fun _ => hw'', hw''⟩

theorem migrateLegacyManifests_spec (hP : Closed P) (key : SnapshotIntegrityKey)
    (ids : List Bytes) : ∀ w', P w' →
    wp (migrateLegacyManifests store key ids) (fun _ => P) (fun _ => P) P w' := by
  induction ids with
  | nil => exact fun w' h => wp_pure h
  | cons first ids ih =>
    intro w' h
    have hmig : wp (migrateLegacyManifest store key first) (fun _ => P) (fun _ => P) P w' := by
      refine wp_bind (wp_inspect (fun raw? _ => ?_) fun _ _ => h)
      cases raw? with
      | none => exact wp_pure h
      | some raw =>
        exact wp_writeAside hP (aside_integrityPath first)
          (not_temporary_integrityPath first) raw false h
    exact wp_call hmig (fun _ _ => id) (fun _ => id) fun _ => ih

/-- The generation is kept before it is returned. -/
theorem allocateGeneration_spec (w : StoreWorld) :
    wp (allocateGeneration store) (fun generation w' => Creating store w generation none w')
      (fun _ => Stage store w) (Stage store w) w := by
  have hstar : Stage store w w := .inl (.refl w)
  refine wp_bind (wp_inspect (fun next hnext => ?_) fun _ _ => hstar)
  obtain ⟨generation, legacyIds⟩ := next
  refine wp_bind (wp_inspect (fun raw hraw => ?_) fun _ _ => hstar)
  have halloc : ∀ w', Written w w' generationPath raw false →
      Creating store w generation none w' := by
    intro w' hwritten
    refine ⟨⟨legacyIds, hnext⟩, ⟨raw, hraw, hwritten.value⟩, fun id _ => ?_, nofun⟩
    exact hwritten.frame _ nofun (not_temporary_metadataPath id)
  have hstage : ∀ w', Creating store w generation none w' → Stage store w w' :=
    fun w' h => .inr ⟨generation, none, h⟩
  refine wp_bind (wp_writeAtomically not_temporary_generationPath
    (fun w' hsame => ⟨fun _ _ => .inl hsame.keeps, .inl hsame.keeps⟩) fun w₁ hwritten =>
      ⟨?_, fun _ => hstage w₁ (halloc w₁ hwritten), hstage w₁ (halloc w₁ hwritten)⟩)
  have hclosed : Closed (Creating store w generation none) := fun h h' => h.keeps h'
  cases hkey : store.integrity with
  | none => exact wp_pure (halloc w₁ hwritten)
  | some key =>
    exact wp_call (migrateLegacyManifests_spec hclosed key legacyIds w₁ (halloc w₁ hwritten))
      (fun _ => hstage) hstage fun _ w₂ h => wp_pure h

/-! ### The transaction -/

section Transaction

variable {generation : ℕ} {metadata : SnapshotMetadata} {rawMetadata : Bytes}

/-- The metadata of the new snapshot are published, or are not. -/
def InTransaction (store : SnapshotStore) (w : StoreWorld) (generation : ℕ)
    (metadata : SnapshotMetadata) (w' : StoreWorld) : Prop :=
  Creating store w generation none w' ∨ Creating store w generation (some metadata) w'

theorem closed_inTransaction : Closed (InTransaction store w generation metadata) := by
  rintro w' w'' (h | h) h'
  · exact .inl (h.keeps h')
  · exact .inr (h.keeps h')

theorem InTransaction.stage (h : InTransaction store w generation metadata w') :
    Stage store w w' := by
  obtain h | h := h
  · exact .inr ⟨_, _, h⟩
  · exact .inr ⟨_, _, h⟩

/-- A file of the new snapshot is removed; if it is its metadata, they were published before. -/
theorem InTransaction.remove {w'' : StoreWorld} {path : StorePath} (hdot : 46 ∉ metadata.id)
    (habs : path = metadataPath metadata.id → w.read (metadataPath metadata.id) = none)
    (h : InTransaction store w generation metadata w') (hpath : path ∈ snapshotPaths metadata.id)
    (hrem : Sets w' w'' path none) : InTransaction store w generation metadata w'' := by
  simp only [snapshotPaths, mem_cons, not_mem_nil, or_false] at hpath
  rcases hpath with rfl | rfl | rfl
  · exact closed_inTransaction h (hrem.keeps (aside_configPath hdot))
  · left
    obtain h | h := h
    · exact h.withdraw (.inl rfl) hrem (habs rfl)
    · exact h.withdraw (.inr rfl) hrem (habs rfl)
  · exact closed_inTransaction h (hrem.keeps (aside_integrityPath _))

/-- The files that a transaction has published. -/
structure Tracks (w : StoreWorld) (metadata : SnapshotMetadata) (tracked : List StorePath) :
    Prop where
  subset : tracked ⊆ snapshotPaths metadata.id
  absent : metadataPath metadata.id ∈ tracked → w.read (metadataPath metadata.id) = none

theorem dropTransaction_spec (hdot : 46 ∉ metadata.id) (tracked : List StorePath) :
    ∀ w', Tracks w metadata tracked → InTransaction store w generation metadata w' →
    wp (dropTransaction tracked) (fun _ => InTransaction store w generation metadata)
      (fun _ => InTransaction store w generation metadata)
      (InTransaction store w generation metadata) w' := by
  induction tracked with
  | nil => exact fun w' _ h => wp_pure h
  | cons path tracked ih =>
    intro w' htracks h
    have hrest : Tracks w metadata tracked :=
      ⟨subset_of_cons_subset htracks.subset,
        fun hmem => htracks.absent (mem_cons_of_mem _ hmem)⟩
    refine wp_bind (wp_attempt (wp_removeFile (fun w₁ hsame => ?_) fun w₁ hrem => ?_))
    · have h₁ := closed_inTransaction h hsame.keeps
      exact ⟨fun _ => ih w₁ hrest h₁, h₁⟩
    · refine ih w₁ hrest (h.remove hdot ?_ (htracks.subset mem_cons_self) hrem)
      rintro rfl
      exact htracks.absent mem_cons_self

/-- What is published for a new snapshot: metadata only under their own name. -/
def IsTransactionFile (metadata : SnapshotMetadata) (rawMetadata : Bytes)
    (file : StorePath × Except SnapshotError Bytes) : Prop :=
  file.1 = configPath metadata.id ∨ file = (metadataPath metadata.id, .ok rawMetadata) ∨
    file.1 = integrityPath metadata.id

theorem IsTransactionFile.mem {file : StorePath × Except SnapshotError Bytes}
    (h : IsTransactionFile metadata rawMetadata file) : file.1 ∈ snapshotPaths metadata.id := by
  rcases h with h | rfl | h
  · simp [snapshotPaths, h]
  · simp [snapshotPaths]
  · simp [snapshotPaths, h]

/-- A file of the transaction is published. -/
theorem Creating.write {new : Option SnapshotMetadata} {w'' : StoreWorld} {path : StorePath}
    {text : Bytes} (h : Creating store w generation new w')
    (hdot : 46 ∉ metadata.id) (hgen : metadata.generation = generation)
    (henc : store.toml.metadata.encode metadata = some rawMetadata)
    (hnew : new = none ∨ new = some metadata)
    (hfile : IsTransactionFile metadata rawMetadata (path, .ok text))
    (hwritten : Written w' w'' path text true) :
    ∃ new', (new' = none ∨ new' = some metadata) ∧ Creating store w generation new' w'' ∧
      (new = some metadata ∨ path = metadataPath metadata.id → new' = some metadata) := by
  obtain hconfig | hmeta | hint := hfile
  · obtain rfl : path = _ := hconfig
    refine ⟨new, hnew, h.keeps (hwritten.toSets.keeps (aside_configPath hdot)), ?_⟩
    exact fun hor => hor.resolve_right (configPath_ne_metadataPath hdot _)
  · obtain ⟨rfl, hcont⟩ := Prod.mk.inj hmeta
    obtain rfl := Except.ok.inj hcont
    exact ⟨some metadata, .inr rfl, h.publish hnew hgen henc hwritten, fun _ => rfl⟩
  · obtain rfl : path = _ := hint
    refine ⟨new, hnew, h.keeps (hwritten.toSets.keeps (aside_integrityPath _)), ?_⟩
    exact fun hor => hor.resolve_right (metadataPath_ne_integrityPath _ _).symm

theorem publishTransaction_spec (hdot : 46 ∉ metadata.id) (hgen : metadata.generation = generation)
    (henc : store.toml.metadata.encode metadata = some rawMetadata)
    (files : List (StorePath × Except SnapshotError Bytes)) :
    ∀ (tracked : List StorePath) (new : Option SnapshotMetadata) (w' : StoreWorld),
    (∀ file ∈ files, IsTransactionFile metadata rawMetadata file) → Tracks w metadata tracked →
    (new = none ∨ new = some metadata) → Creating store w generation new w' →
    wp (publishTransaction files tracked)
      (fun _ w'' => ∃ new', Creating store w generation new' w'' ∧
        (new = some metadata ∨ (∃ file ∈ files, file.1 = metadataPath metadata.id) →
          new' = some metadata))
      (fun _ => InTransaction store w generation metadata)
      (InTransaction store w generation metadata) w' := by
  have htransaction : ∀ {new w'}, (new = none ∨ new = some metadata) →
      Creating store w generation new w' → InTransaction store w generation metadata w' := by
    rintro new w' (rfl | rfl) h
    · exact .inl h
    · exact .inr h
  have hdrop : ∀ {Q : Unit → StoreWorld → Prop} (tracked : List StorePath) (w' : StoreWorld)
      (e : SnapshotError), Tracks w metadata tracked →
      InTransaction store w generation metadata w' →
      wp (do dropTransaction tracked; fail e) Q
        (fun _ => InTransaction store w generation metadata)
        (InTransaction store w generation metadata) w' :=
    fun tracked w' e htracks h => wp_bind (wp_mono (dropTransaction_spec hdot tracked w' htracks h)
      (fun _ _ h => wp_fail h) (fun _ _ => id) fun _ => id)
  induction files with
  | nil =>
    intro tracked new w' _ _ hnew h
    refine wp_pure ⟨new, h, fun hor => hor.resolve_right ?_⟩
    rintro ⟨file, hfile, -⟩
    cases hfile
  | cons file files ih =>
    intro tracked new w' hfiles htracks hnew h
    obtain ⟨path, text?⟩ := file
    have hrest := fun file hfile => hfiles file (mem_cons_of_mem _ hfile)
    have hfile := hfiles _ mem_cons_self
    cases text? with
    | error e => exact hdrop tracked w' e htracks (htransaction hnew h)
    | ok text =>
      have htemp := not_temporary_of_mem_snapshotPaths hfile.mem
      refine wp_bind (wp_bind (wp_attempt (wp_writeAtomically htemp (fun w₁ hsame => ?_)
        fun w₁ hwritten => ?_)))
      · have h₁ := htransaction hnew (h.keeps hsame.keeps)
        refine ⟨fun e he => ?_, h₁⟩
        -- the error is not of a file in place, so the file is none of the transaction
        cases e with
        | publishedButNotDurable path' => exact absurd ⟨path', rfl⟩ he
        | _ => exact wp_pure (hdrop tracked w₁ _ htracks h₁)
      · obtain ⟨new₁, hnew₁, h₁, hpub⟩ :=
          h.write hdot hgen henc hnew hfile hwritten
        have htracks₁ : Tracks w metadata (path :: tracked) := by
          refine ⟨cons_subset.2 ⟨hfile.mem, htracks.subset⟩, fun hmem => ?_⟩
          rcases mem_cons.1 hmem with heq | hmem
          · rw [hpub (.inr heq.symm)] at h₁
            exact (h₁.published metadata rfl).2.1
          · exact htracks.absent hmem
        refine ⟨wp_pure ?_, fun e => ?_, htransaction hnew₁ h₁⟩
        · refine wp_mono (ih (path :: tracked) new₁ w₁ hrest htracks₁ hnew₁ h₁) ?_
            (fun _ _ => id) fun _ => id
          rintro - w₂ ⟨new₂, h₂, hnew₂⟩
          refine ⟨new₂, h₂, fun hor => hnew₂ ?_⟩
          rcases hor with hor | ⟨file, hmem, hpath⟩
          · exact .inl (hpub (.inl hor))
          · rcases mem_cons.1 hmem with rfl | hmem
            · exact .inl (hpub (.inr hpath))
            · exact .inr ⟨file, hmem, hpath⟩
        · cases e with
          | publishedButNotDurable path' =>
            exact wp_pure (hdrop _ w₁ _ htracks₁ (htransaction hnew₁ h₁))
          | _ => exact wp_pure (hdrop tracked w₁ _ htracks (htransaction hnew₁ h₁))

end Transaction

theorem dot_not_mem_newSnapshotId (now : ℕ × ℕ) (generation sequence : ℕ) :
    46 ∉ newSnapshotId now generation sequence := by
  have hdec : ∀ n, 46 ∉ decimal n := fun n => not_mem_decimal (by decide)
  simp [newSnapshotId, paddedDecimal, hdec]

theorem isTransactionFile_of_mem {metadata : SnapshotMetadata} {rawC rawMetadata : Bytes}
    {file : StorePath × Except SnapshotError Bytes}
    (h : file ∈ transactionFiles store metadata rawC rawMetadata) :
    IsTransactionFile metadata rawMetadata file := by
  rcases mem_cons.1 h with rfl | h
  · exact .inl rfl
  rcases mem_cons.1 h with rfl | h
  · exact .inr (.inl rfl)
  cases hkey : store.integrity with
  | none =>
    rw [hkey] at h
    cases h
  | some key =>
    rw [hkey] at h
    exact .inr (.inr (mem_singleton.1 h ▸ rfl))

/-- **A creation that stops has taken no generation, or has taken the next one, and has published a
snapshot only under it.** -/
theorem snapshotSerializedConfig_spec (req : SnapshotRequest) (w : StoreWorld) :
    wp (snapshotSerializedConfig store req)
      (fun snap w' => snap.id = snap.metadata.id ∧
        Creating store w snap.metadata.generation (some snap.metadata) w')
      (fun _ => Stage store w) (Stage store w) w := by
  have hstart : Stage store w w := .inl (.refl w)
  refine wp_bind (wp_inspect (fun message _ => ?_) fun _ _ => hstart)
  refine wp_bind (wp_inspect (fun _ _ => ?_) fun _ _ => hstart)
  refine wp_bind (wp_inspect (fun _ _ => ?_) fun _ _ => hstart)
  refine wp_bind (wp_inspect (fun parentId _ => ?_) fun _ _ => hstart)
  refine wp_call (allocateGeneration_spec w) (fun _ _ => id) (fun _ => id) fun generation w₁ h₁ =>
    ?_
  have halloc : Stage store w w₁ := .inr ⟨generation, none, h₁⟩
  refine wp_bind (wp_inspect (fun created _ => ?_) fun _ _ => halloc)
  refine wp_bind (wp_op halloc ?_ (fun e h => by cases h))
  intro sequence w₂ h
  obtain ⟨rfl, rfl⟩ := Prod.mk.inj (Except.ok.inj h)
  have h₂ : Creating store w generation none { w₁ with sequence := (w₁.sequence + 1) % 2 ^ 64 } :=
    h₁.keeps ⟨rfl, fun _ => rfl⟩
  generalize { w₁ with sequence := (w₁.sequence + 1) % 2 ^ 64 } = w₂ at h₂
  have hdot := dot_not_mem_newSnapshotId created generation w₁.sequence
  generalize newSnapshotId created generation w₁.sequence = id at hdot
  refine wp_bind (wp_inspect (fun rawMetadata henc => ?_) fun _ _ =>
    .inr ⟨generation, none, h₂⟩)
  generalize hmeta : SnapshotMetadata.mk id created.1 parentId generation message = metadata at *
  have hid : metadata.id = id := by rw [← hmeta]
  have hgen : metadata.generation = generation := by rw [← hmeta]
  have hpub := publishTransaction_spec (hid ▸ hdot) hgen (okOr_eq_ok.1 henc)
    (transactionFiles store metadata req.rawConfig rawMetadata) [] none w₂
    (fun _ => isTransactionFile_of_mem) ⟨nil_subset _, nofun⟩ (.inl rfl) h₂
  refine wp_call hpub (fun _ _ => InTransaction.stage) (fun _ => InTransaction.stage) ?_
  rintro - w₃ ⟨new, h₃, hnew⟩
  rw [hnew (.inr ⟨_, mem_cons_of_mem _ mem_cons_self, rfl⟩)] at h₃
  have hclosed : Closed (Creating store w generation (some metadata)) := fun h h' => h.keeps h'
  have hstag : ∀ w', Creating store w generation (some metadata) w' → Stage store w w' :=
    fun w' h => .inr ⟨_, _, h⟩
  have hcur : wp (setCurrent id) (fun _ => Creating store w generation (some metadata))
      (fun _ => Creating store w generation (some metadata))
      (Creating store w generation (some metadata)) w₃ := by
    refine wp_bind (wp_inspect (fun _ _ => ?_) fun _ _ => h₃)
    refine wp_bind (wp_inspect (fun _ _ => ?_) fun _ _ => h₃)
    exact wp_writeAside hclosed aside_currentPath not_temporary_currentPath _ _ h₃
  refine wp_bind (wp_mapError (wp_mono hcur (fun _ w₄ h₄ => wp_pure ⟨hid.symm, ?_⟩)
    (fun _ => hstag) hstag))
  rwa [hgen]

/-- A creation over a store whose kept generation is behind fails, and changes nothing. -/
theorem snapshotSerializedConfig_of_error (req : SnapshotRequest)
    (h : ∃ e, nextGeneration store w = .error e) :
    wp (snapshotSerializedConfig store req) (fun _ _ => False) (fun _ w' => w' = w)
      (fun _ => False) w := by
  obtain ⟨e, he⟩ := h
  refine wp_bind (wp_inspect (fun message _ => ?_) fun _ _ => rfl)
  refine wp_bind (wp_inspect (fun _ _ => ?_) fun _ _ => rfl)
  refine wp_bind (wp_inspect (fun _ _ => ?_) fun _ _ => rfl)
  refine wp_bind (wp_inspect (fun parentId _ => ?_) fun _ _ => rfl)
  refine wp_bind ?_
  refine wp_bind (wp_inspect (fun next hnext => ?_) fun _ _ => rfl)
  rw [he] at hnext
  cases hnext

end Programs

end Fluxheim.Snapshot
