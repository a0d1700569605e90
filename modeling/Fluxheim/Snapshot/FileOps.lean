import Fluxheim.Lib.Crash
import Fluxheim.Snapshot.Store

/-!
# The file operations of the store

Programs that write to the store, as programs that can be cut off before any operation, and any
operation of which can fail.
-/

namespace Fluxheim.Snapshot

open Ascii Crash Crash.Prog

/-- Programs on the store. -/
abbrev StoreProg := Prog StoreWorld SnapshotError

/-- One operation.  Whether it fails is up to the world. -/
def fileOp {α : Type} (f : StoreWorld → Except SnapshotError (α × StoreWorld)) : StoreProg α := do
  let result ← op fun w =>
    match w.faults with
    | true :: faults => .ok (.error (.io .other), { w with faults := faults })
    | false :: faults => .ok (attemptOn { w with faults := faults })
    | [] => .ok (attemptOn w)
  match result with
  | .ok a => pure a
  | .error e => Prog.fail e
where
  attemptOn (w : StoreWorld) : Except SnapshotError α × StoreWorld :=
    match f w with
    | .ok (a, w) => (.ok a, w)
    | .error e => (.error e, w)

/-- The next number for a temporary name. -/
def uniqueSequence : StoreProg ℕ :=
  op fun w => .ok (w.sequence, { w with sequence := (w.sequence + 1) % 2 ^ 64 })

variable (path : StorePath)

/-- A new, empty file. -/
def createFile : StoreProg Unit :=
  fileOp fun w =>
    if w.read path ≠ none then .error (.io .alreadyExists) else .ok ((), w.set path (some []))

/-- The contents of a file. -/
def writeContents (contents : Bytes) : StoreProg Unit :=
  fileOp fun w => .ok ((), w.set path (some contents))

/-- The file or the directory is synchronised. -/
def sync : StoreProg Unit := fileOp fun w => .ok ((), w)

/-- A second name, which must be new. -/
def linkFile (source target : StorePath) : StoreProg Unit :=
  fileOp fun w =>
    if w.read target ≠ none then .error (.io .alreadyExists)
    else .ok ((), w.set target (w.read source))

/-- A file is moved into place. -/
def renameFile (source target : StorePath) : StoreProg Unit :=
  fileOp fun w => .ok ((), (w.set target (w.read source)).set source none)

/-- A file is removed. -/
def removeFile : StoreProg Unit :=
  fileOp fun w =>
    if w.read path = none then .error (.io .notFound) else .ok ((), w.set path none)

/-- A file is removed, if it is there. -/
def removeIfPresent : StoreProg Unit := do
  match ← attempt (removeFile path) with
  | .ok () => pure ()
  | .error (.io .notFound) => pure ()
  | .error e => Prog.fail e

/-- The name that a file is written under first. -/
def temporaryName (process sequence : ℕ) : Bytes :=
  46 :: path.name ++ ascii ".tmp-" ++ decimal process ++ 45 :: decimal sequence

/-- A file that must be new was linked before what failed then. -/
def orNotDurable (createNew : Bool) (e : SnapshotError) : SnapshotError :=
  if createNew then .publishedButNotDurable path else e

/-- The file is written and moved into place. -/
def publishFile (path temporary : StorePath) (contents : Bytes) (createNew : Bool) :
    StoreProg Unit := do
  createFile temporary
  writeContents temporary contents
  sync
  if createNew then do
    linkFile temporary path
    mapError (fun _ => .publishedButNotDurable path) (removeFile temporary)
  else renameFile temporary path

/-- `write_atomically`, and with `createNew` `write_atomically_new`. -/
def writeAtomically (contents : Bytes) (createNew : Bool) : StoreProg Unit := do
  inspect fun w =>
    if createNew && (w.read path).isSome then .error (.io .alreadyExists) else .ok ()
  let sequence ← uniqueSequence
  let process ← look (·.process)
  let temporary := path.sibling (temporaryName path process sequence)
  match ← attempt (publishFile path temporary contents createNew) with
  | .error e => do
      -- the temporary file is removed, if that can be done
      let _ ← attempt (removeFile temporary)
      Prog.fail e
  | .ok () => mapError (orNotDurable path createNew) sync

/-- Temporary names end in a number; no file of the store does. -/
def Temporary : Prop := ∃ b, path.name.getLast? = some b ∧ isDigit b = true

theorem temporary_sibling (process sequence : ℕ) :
    Temporary (path.sibling (temporaryName path process sequence)) := by
  rw [Temporary, StorePath.name_sibling, temporaryName]
  obtain ⟨b, hb⟩ := Option.ne_none_iff_exists'.1 (mt List.getLast?_eq_none_iff.1
    (decimal_ne_nil sequence))
  refine ⟨b, ?_, isDigit_of_mem_decimal (List.mem_of_getLast? hb)⟩
  rw [List.getLast?_append, List.getLast?_cons, hb]
  rfl

variable {path}

theorem not_temporary_of_toml {x : Bytes} (h : path.name = x ++ ascii ".toml") :
    ¬ Temporary path := by
  rintro ⟨b, hb, hdig⟩
  rw [h, List.getLast?_append] at hb
  obtain rfl := Option.some.inj hb
  cases hdig

theorem not_temporary_of_mem_snapshotPaths {id : Bytes}
    (h : path ∈ snapshotPaths id) : ¬ Temporary path := by
  simp only [snapshotPaths, List.mem_cons, List.not_mem_nil, or_false] at h
  rcases h with rfl | rfl | rfl
  · exact not_temporary_of_toml rfl
  · exact @not_temporary_of_toml _ (id ++ ascii ".meta") (by rw [List.append_assoc]; rfl)
  · exact @not_temporary_of_toml _ (id ++ ascii ".integrity") (by rw [List.append_assoc]; rfl)

theorem not_temporary_currentPath : ¬ Temporary currentPath := by
  rintro ⟨b, hb, hdig⟩
  obtain rfl := Option.some.inj hb
  cases hdig

theorem not_temporary_generationPath : ¬ Temporary generationPath :=
  not_temporary_of_toml (x := ascii "generation") rfl

theorem not_temporary_pruneBoundaryPath : ¬ Temporary pruneBoundaryPath :=
  not_temporary_of_toml (x := ascii "prune-boundaries") rfl

/-- The files are as they were. -/
def Same (w w' : StoreWorld) : Prop := ∀ path, ¬ Temporary path → w'.read path = w.read path

/-- One file has these contents, or none; the others are as they were. -/
structure Sets (w w' : StoreWorld) (path : StorePath) (contents : Option Bytes) : Prop where
  value : w'.read path = contents
  frame : ∀ other, other ≠ path → ¬ Temporary other → w'.read other = w.read other

/-- The file was written; with `createNew` it was not there before. -/
structure Written (w w' : StoreWorld) (path : StorePath) (contents : Bytes) (createNew : Bool) :
    Prop extends Sets w w' path (some contents) where
  new : createNew = true → w.read path = none

theorem Same.refl (w : StoreWorld) : Same w w := fun _ _ => rfl

variable {w w' w'' : StoreWorld}

theorem Same.trans (h : Same w w') (h' : Same w' w'') : Same w w'' :=
  fun path hpath => (h' path hpath).trans (h path hpath)

variable {contents : Option Bytes}

theorem Sets.trans_same
    (hpath : ¬ Temporary path) (h : Sets w w' path contents) (h' : Same w' w'') :
    Sets w w'' path contents :=
  ⟨(h' path hpath).trans h.value, fun other hne hother =>
    (h' other hother).trans (h.frame other hne hother)⟩

theorem Same.trans_sets
    (h : Same w w') (h' : Sets w' w'' path contents) : Sets w w'' path contents :=
  ⟨h'.value, fun other hne hother => (h'.frame other hne hother).trans (h other hother)⟩

theorem Sets.same (h : Sets w w' path contents) (hpath : Temporary path) : Same w w' :=
  fun other hother => h.frame other (fun heq => hother (heq ▸ hpath)) hother

theorem same_set_temporary (h : Temporary path)
    (contents : Option Bytes) : Same w (w.set path contents) := by
  intro other hother
  rw [StoreWorld.read_set, if_neg]
  rintro rfl
  exact hother h

/-! ### Rules -/

section Rules

variable {α : Type} {Q : α → StoreWorld → Prop}
  {E : SnapshotError → StoreWorld → Prop} {I : StoreWorld → Prop}

@[simp] theorem read_faults (faults : List Bool) (path : StorePath) :
    { w with faults := faults }.read path = w.read path := by
  cases path <;> rfl

theorem wp_fileOp {f : StoreWorld → Except SnapshotError (α × StoreWorld)} (hI : I w)
    (hok : ∀ faults a w', f { w with faults := faults } = .ok (a, w') → Q a w')
    (hfau : ∀ faults, E (.io .other) { w with faults := faults })
    (herr : ∀ faults e, f { w with faults := faults } = .error e →
      E e { w with faults := faults }) : wp (fileOp f) Q E I w := by
  have hattempt : ∀ faults,
      wp (match (fileOp.attemptOn f { w with faults := faults }).1 with
        | .ok a => pure a
        | .error e => fail e) Q E I (fileOp.attemptOn f { w with faults := faults }).2 := by
    intro faults
    unfold fileOp.attemptOn
    cases hf : f { w with faults := faults } with
    | ok res => exact wp_pure (hok faults res.1 res.2 hf)
    | error e => exact wp_fail (herr faults e hf)
  refine wp_bind (wp_op hI ?_ ?_)
  · intro res w' h
    split at h
    · obtain ⟨rfl, rfl⟩ := Prod.mk.inj (Except.ok.inj h)
      exact wp_fail (hfau _)
    · rename_i faults _
      obtain ⟨rfl, rfl⟩ := Prod.mk.inj (Except.ok.inj h)
      exact hattempt faults
    · obtain ⟨rfl, rfl⟩ := Prod.mk.inj (Except.ok.inj h)
      exact hattempt w.faults
  · intro e h
    split at h <;> cases h

/-- An operation that fails leaves the files as they were. -/
theorem same_faults (faults : List Bool) : Same w { w with faults := faults } :=
  fun path _ => read_faults faults path

variable {Q : Unit → StoreWorld → Prop}

theorem wp_sync (hkept : ∀ w', Same w w' → Q () w' ∧ (∀ e, E e w') ∧ I w') : wp sync Q E I w := by
  refine wp_fileOp (hkept w (.refl w)).2.2 (fun faults a w' h => ?_)
    (fun faults => (hkept _ (same_faults faults)).2.1 _)
    fun faults e _ => (hkept _ (same_faults faults)).2.1 e
  obtain ⟨-, rfl⟩ := Prod.mk.inj (Except.ok.inj h)
  exact (hkept _ (same_faults faults)).1

theorem sets_set (path : StorePath) (contents : Option Bytes) (faults : List Bool) :
    Sets w ({ w with faults := faults }.set path contents) path contents :=
  ⟨by simp, fun other hne _ => by simp [hne]⟩

theorem wp_removeFile {path : StorePath} (hkept : ∀ w', Same w w' → (∀ e, E e w') ∧ I w')
    (hrem : ∀ w', Sets w w' path none → Q () w') : wp (removeFile path) Q E I w := by
  refine wp_fileOp (hkept w (.refl w)).2 (fun faults a w' h => hrem w' ?_)
    (fun faults => (hkept _ (same_faults faults)).1 _)
    fun faults e _ => (hkept _ (same_faults faults)).1 e
  split_ifs at h with hnone
  obtain ⟨-, rfl⟩ := Prod.mk.inj (Except.ok.inj h)
  exact sets_set path none faults

theorem wp_removeIfPresent {path : StorePath} (hkept : ∀ w', Same w w' → (∀ e, E e w') ∧ I w')
    (hrem : ∀ w', Sets w w' path none → Q () w') : wp (removeIfPresent path) Q E I w := by
  refine wp_bind (wp_attempt (wp_fileOp (hkept w (.refl w)).2 ?_ ?_ ?_))
  · intro faults a w' h
    split_ifs at h with hnone
    obtain ⟨-, rfl⟩ := Prod.mk.inj (Except.ok.inj h)
    exact wp_pure (hrem _ (sets_set path none faults))
  · intro faults
    exact wp_fail ((hkept _ (same_faults faults)).1 _)
  · intro faults e h
    split_ifs at h with hnone
    obtain rfl := Except.error.inj h
    -- there was nothing to remove
    rw [read_faults] at hnone
    exact wp_pure (hrem _ ⟨by rw [read_faults, hnone], fun other _ _ => read_faults faults other⟩)

/-- The error of a file that is in place, but may not be durable. -/
def NotDurable (e : SnapshotError) : Prop := ∃ path, e = .publishedButNotDurable path

/-- The write has been done or has not. -/
def Attempted (w : StoreWorld) (path : StorePath) (contents : Bytes) (createNew : Bool)
    (w' : StoreWorld) : Prop :=
  Same w w' ∨ Written w w' path contents createNew

/-- The write has been done, or it has not and the error says so. -/
def Failed (w : StoreWorld) (path : StorePath) (contents : Bytes) (createNew : Bool)
    (e : SnapshotError) (w' : StoreWorld) : Prop :=
  Same w w' ∧ ¬ NotDurable e ∨ Written w w' path contents createNew

section Write

variable {w₁ w₂ : StoreWorld} {temporary : StorePath} {contents : Bytes} {createNew : Bool}

theorem Written.trans_same (hpath : ¬ Temporary path) (h : Written w w₁ path contents createNew)
    (h' : Same w₁ w₂) : Written w w₂ path contents createNew :=
  ⟨h.toSets.trans_same hpath h', h.new⟩

theorem Failed.trans_same (hpath : ¬ Temporary path) {e : SnapshotError}
    (h : Failed w path contents createNew e w₁) (h' : Same w₁ w₂) :
    Failed w path contents createNew e w₂ := by
  obtain ⟨h, he⟩ | h := h
  · exact .inl ⟨h.trans h', he⟩
  · exact .inr (h.trans_same hpath h')

/-- An operation before the file is in place; if it fails, it leaves the files as they were. -/
theorem wp_fileOp_before {f : StoreWorld → Except SnapshotError (Unit × StoreWorld)}
    (h : Same w w₁) (hio : ∀ v e, f v = .error e → ¬ NotDurable e)
    (hok : ∀ faults w₂, f { w₁ with faults := faults } = .ok ((), w₂) → Q () w₂) :
    wp (fileOp f) Q (Failed w path contents createNew) (Attempted w path contents createNew) w₁ :=
  wp_fileOp (.inl h) (fun faults _ => hok faults)
    (fun faults => .inl ⟨h.trans (same_faults faults), nofun⟩)
    fun faults e he => .inl ⟨h.trans (same_faults faults), hio _ e he⟩

theorem publishFile_spec (hpath : ¬ Temporary path) (htemp : Temporary temporary)
    (contents : Bytes) (createNew : Bool) :
    wp (publishFile path temporary contents createNew)
      (fun _ w' => Written w w' path contents createNew)
      (Failed w path contents createNew) (Attempted w path contents createNew) w := by
  have hex : ∀ {c : Prop} [Decidable c] {v : StoreWorld} {e : SnapshotError},
      (if c then .error (.io .alreadyExists) else .ok ((), v)) = Except.error e →
      ¬ NotDurable e := by
    rintro c _ v e h ⟨path, rfl⟩
    split_ifs at h
    cases h
  refine wp_bind (wp_fileOp_before (.refl w) (fun v e h => hex h) fun faults w₁ h => ?_)
  split_ifs at h
  obtain ⟨-, rfl⟩ := Prod.mk.inj (Except.ok.inj h)
  have hsame₁ : Same w ({ w with faults := faults }.set temporary (some [])) :=
    (same_faults faults).trans (same_set_temporary htemp _)
  generalize { w with faults := faults }.set temporary (some []) = w₁ at hsame₁
  refine wp_bind (wp_fileOp_before hsame₁ nofun fun faults w₂ h => ?_)
  obtain ⟨-, rfl⟩ := Prod.mk.inj (Except.ok.inj h)
  have hsame₂ : Same w ({ w₁ with faults := faults }.set temporary (some contents)) :=
    hsame₁.trans ((same_faults faults).trans (same_set_temporary htemp _))
  have hread₂ : ({ w₁ with faults := faults }.set temporary (some contents)).read temporary =
      some contents := by simp
  generalize { w₁ with faults := faults }.set temporary (some contents) = w₂ at hsame₂ hread₂
  refine wp_bind (wp_fileOp_before hsame₂ nofun fun faults w₃ h => ?_)
  obtain ⟨-, rfl⟩ := Prod.mk.inj (Except.ok.inj h)
  have hsame₃ : Same w { w₂ with faults := faults } := hsame₂.trans (same_faults faults)
  have hread₃ : { w₂ with faults := faults }.read temporary = some contents := by
    rw [read_faults, hread₂]
  generalize { w₂ with faults := faults } = w₃ at hsame₃ hread₃
  cases createNew with
  | true =>
    refine wp_bind (wp_fileOp_before hsame₃ (fun v e h => hex h) fun faults w₄ h => ?_)
    split_ifs at h with habs
    obtain ⟨-, rfl⟩ := Prod.mk.inj (Except.ok.inj h)
    have hnew : w.read path = none := by
      rw [← hsame₃ path hpath]
      exact not_not.1 habs
    have hlink := hsame₃.trans_sets (sets_set path ({ w₃ with faults := faults }.read temporary)
      faults)
    rw [read_faults, hread₃] at hlink ⊢
    have hwritten : Written w _ path contents true := ⟨hlink, fun _ => hnew⟩
    exact wp_mapError (wp_removeFile (fun w' h => ⟨fun _ => .inr (hwritten.trans_same hpath h),
      .inr (hwritten.trans_same hpath h)⟩) fun w' h => hwritten.trans_same hpath (h.same htemp))
  | false =>
    refine wp_fileOp_before hsame₃ nofun fun faults w₄ h => ?_
    obtain ⟨-, rfl⟩ := Prod.mk.inj (Except.ok.inj h)
    have hmove := hsame₃.trans_sets (sets_set path ({ w₃ with faults := faults }.read temporary)
      faults)
    rw [read_faults, hread₃] at hmove ⊢
    exact ⟨hmove.trans_same hpath (same_set_temporary htemp none), nofun⟩

/-- **A write that is cut off, or fails, has been done or has not**; one with the error of a file
that may not be durable has been. -/
theorem wp_writeAtomically (hpath : ¬ Temporary path)
    (hkept : ∀ w', Same w w' → (∀ e, ¬ NotDurable e → E e w') ∧ I w')
    (hwritten : ∀ w', Written w w' path contents createNew → Q () w' ∧ (∀ e, E e w') ∧ I w') :
    wp (writeAtomically path contents createNew) Q E I w := by
  have hfailed : ∀ e w', Failed w path contents createNew e w' → E e w' := by
    rintro e w' (⟨h, he⟩ | h)
    · exact (hkept w' h).1 e he
    · exact (hwritten w' h).2.1 e
  have hcut : ∀ w', Attempted w path contents createNew w' → I w' := by
    rintro w' (h | h)
    · exact (hkept w' h).2
    · exact (hwritten w' h).2.2
  refine wp_bind (wp_inspect (fun _ _ => ?_) fun e h => ?_)
  swap
  · split_ifs at h
    obtain rfl := Except.error.inj h
    exact hfailed _ w (.inl ⟨.refl w, nofun⟩)
  refine wp_bind (wp_op (hcut w (.inl (.refl w))) ?_ (fun e h => by cases h))
  intro sequence w₁ h
  obtain ⟨rfl, rfl⟩ := Prod.mk.inj (Except.ok.inj h)
  have hsame : Same w { w with sequence := (w.sequence + 1) % 2 ^ 64 } :=
    fun other _ => by cases other <;> rfl
  generalize { w with sequence := (w.sequence + 1) % 2 ^ 64 } = w₁ at hsame
  refine wp_bind (wp_look ?_)
  have htemp := temporary_sibling path w₁.process w.sequence
  generalize path.sibling (temporaryName path w₁.process w.sequence) = temporary at htemp
  have hafter : ∀ w', Written w₁ w' path contents createNew →
      Written w w' path contents createNew :=
    fun w' h => ⟨hsame.trans_sets h.toSets, fun hnew => (hsame path hpath).symm.trans (h.new hnew)⟩
  refine wp_bind (wp_attempt (wp_mono (publishFile_spec hpath htemp contents createNew)
    (fun _ w' h => ?_) (fun e w' h => ?_) fun w' h => ?_))
  · -- only the directory is left to synchronise
    have h := hafter w' h
    refine wp_mapError (wp_sync fun w'' hsync => ?_)
    obtain ⟨hQ, hE, hI⟩ := hwritten w'' (h.trans_same hpath hsync)
    exact ⟨hQ, fun e => hE _, hI⟩
  · have h : Failed w path contents createNew e w' := by
      obtain ⟨h, he⟩ | h := h
      · exact .inl ⟨hsame.trans h, he⟩
      · exact .inr (hafter w' h)
    have hI : ∀ w'', Same w' w'' → I w'' := fun w'' h' => by
      obtain ⟨h, -⟩ | h := h
      · exact hcut w'' (.inl (h.trans h'))
      · exact hcut w'' (.inr (h.trans_same hpath h'))
    refine wp_bind (wp_attempt (wp_removeFile (fun w'' hrem => ?_) fun w'' hrem => ?_))
    · exact ⟨fun _ => wp_fail (hfailed e w'' (h.trans_same hpath hrem)), hI w'' hrem⟩
    · exact wp_fail (hfailed e w'' (h.trans_same hpath (hrem.same htemp)))
  · obtain h | h := h
    · exact hcut w' (.inl (hsame.trans h))
    · exact hcut w' (.inr (hafter w' h))

end Write

end Rules

end Fluxheim.Snapshot
