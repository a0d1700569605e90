import Fluxheim.Acme.FileEffects

/-!
# Recovery from an interrupted install

The operations of an install and of the recovery from one, by what they link and how many file
operations they take.  Before and after publishing, recovery removes the backups; while publishing,
it restores from them.
-/

namespace Fluxheim.Acme

open Crash Crash.Prog Directory

variable {B T : Type}

/-- Whether there is an active file. -/
def World.exists (w : World B T) (slot : Slot) : Bool := (w.read (.active slot)).isSome

variable (transaction : T)

/-- What an install writes before its journal is on disk. -/
def pendingNames : List (FileName T) :=
  [.temporary .certificate transaction, .temporary .privateKey transaction,
    .installJournalTemporary transaction]

/-- What it writes before it publishes. -/
def transactionNames : List (FileName T) :=
  pendingNames transaction ++ [.installJournal, .backup .certificate, .backup .privateKey]

/-- All that it writes. -/
def touchedNames : List (FileName T) :=
  transactionNames transaction ++ [.active .certificate, .active .privateKey]

theorem World.exists_eq_isSome (w : World B T) (slot : Slot) :
    w.exists slot = (w.dir.links (.active slot)).isSome :=
  Option.isSome_map

variable {w : World B T}

theorem World.exists_eq_false {slot : Slot} :
    w.exists slot = false ↔ w.dir.links (.active slot) = none := by
  rw [exists_eq_isSome, Option.isSome_eq_false_iff, Option.isNone_iff_eq_none]

theorem World.exists_eq_true {slot : Slot} :
    w.exists slot = true ↔ w.dir.links (.active slot) ≠ none := by
  rw [exists_eq_isSome, Option.isSome_iff_ne_none]

variable {P : World B T → Prop}

theorem passes_exists (n : FileName T) :
    Passes (certificateFileExistsRegular n) w 0 P (w.read n).isSome w :=
  passes_look _

theorem passes_readJournal {journal : CertificateInstallJournal T}
    (hread : w.read .installJournal = some (.install journal)) :
    Passes readJournal w (0 + 0) P (some journal) w := by
  have hlook : Passes (look fun w : World B T => w.dir.read .installJournal :
      FileProg B T (Option (Contents B T))) w 0 P (w.read .installJournal) w :=
    passes_look _
  rw [hread] at hlook
  exact hlook.bind (passes_pure _)

theorem runs_read {n : FileName T} {contents : Option (Contents B T)}
    (hread : w.read n = contents) :
    Runs (look fun w : World B T => w.dir.read n : FileProg B T _) w [] (.ok contents) w :=
  hread ▸ runs_look _

/-- The names given have been removed, and nothing else. -/
structure Cleared (names : List (FileName T)) (w w' : World B T) : Prop where
  within : Within names w.dir w'.dir
  gone : ∀ n ∈ names, w'.dir.links n = none

theorem Cleared.nil (w : World B T) : Cleared [] w w :=
  ⟨Within.refl _, nofun⟩

variable [DecidableEq B] [DecidableEq T]

/-- After an operation that leaves `dir`. -/
def World.after (w : World B T) (dir : Directory (FileName T) (Contents B T)) : World B T :=
  ⟨dir, newlyRevoked w.dir dir ++ w.revoked⟩

section Operations

variable {n : FileName T}

theorem passes_fileOp {f : Directory (FileName T) (Contents B T) →
      Except DirError (Directory (FileName T) (Contents B T))}
    {dir : Directory (FileName T) (Contents B T)} (hf : f w.dir = .ok dir) (hw : P w) :
    Passes (fileOp n f) w 1 P () (w.after dir) := by
  refine passes_op ?_ hw
  simp only [hf]
  rfl

theorem passes_cleanupBackup (n : FileName T) (hw : P w) :
    Passes (cleanupBackup n) w 1 P () (w.after (w.dir.unlink n)) :=
  passes_fileOp rfl hw

theorem passes_rename_same (src target : FileName T) (hlink : w.dir.links src ≠ none)
    (hsame : w.dir.links target = w.dir.links src) (hw : P w) :
    Passes (renameCertificateFile src target) w 1 P () (w.after w.dir) :=
  passes_fileOp (rename_same hlink hsame) hw

theorem passes_rename_move (src target : FileName T) (hlink : w.dir.links src ≠ none)
    (hother : w.dir.links target ≠ w.dir.links src) (hw : P w) :
    ∃ w', Passes (renameCertificateFile src target) w 1 P () w' ∧
      Within [src, target] w.dir w'.dir ∧ w'.dir.links target = w.dir.links src ∧
      w'.dir.links src = none := by
  obtain ⟨dir, hdir, heff⟩ := rename_move hlink hother
  exact ⟨w.after dir, passes_fileOp hdir hw, heff⟩

theorem passes_writeNewFile (hlink : w.dir.links n = none) (c : Contents B T)
    (hP : ∀ v, Within [n] w.dir v.dir → P v) :
    ∃ w', Passes (writeNewFile n c) w 2 P () w' ∧ Within [n] w.dir w'.dir ∧
      NewFile w.dir w'.dir n c := by
  obtain ⟨dir₁, dir₂, hcreate, hwrite, hin₁, hin₂, hnew⟩ :=
    create_overwrite hlink .torn c
  have hfirst : Passes (fileOp n fun dir => dir.create n .torn) w 1 P () (w.after dir₁) :=
    passes_fileOp hcreate (hP w (Within.refl _))
  have hsecond : Passes (fileOp n fun dir => dir.overwrite n c) (w.after dir₁) 1 P ()
      ((w.after dir₁).after dir₂) :=
    passes_fileOp hwrite (hP _ hin₁)
  have hrun : Passes (writeNewFile n c) w (1 + 1) P () ((w.after dir₁).after dir₂) :=
    hfirst.bind hsecond
  exact ⟨_, hrun, hin₂, hnew⟩

/-- A journal is written aside and renamed. -/
theorem passes_writeJournal (journal : CertificateInstallJournal T)
    (hP : ∀ v, Within [.installJournalTemporary journal.transaction] w.dir v.dir → P v) :
    ∃ w', Passes (writeJournal journal) w 4 P () w' ∧
      Within [.installJournalTemporary journal.transaction, .installJournal] w.dir w'.dir ∧
      w'.read .installJournal = some (.install journal) := by
  have hunlink := within_unlink w.dir (.installJournalTemporary journal.transaction)
  have hclean := passes_cleanupBackup (.installJournalTemporary journal.transaction)
    (hP w (Within.refl _))
  obtain ⟨w₂, hwrite, hin₂, hnew⟩ := passes_writeNewFile
    (w := w.after (w.dir.unlink (.installJournalTemporary journal.transaction))) (P := P)
    (links_unlink_self _ _) (.install journal) fun v hv => hP v (hunlink.trans hv)
  have hin := hunlink.trans hin₂
  -- the file renamed is a new one
  have hfile := hnew.mono hunlink.grown
  have hlink : w₂.dir.links .installJournal = w.dir.links .installJournal :=
    hin.links _ (by simp)
  obtain ⟨w₃, hrename, hin₃, htarget, -⟩ := passes_rename_move (w := w₂) (P := P)
    (.installJournalTemporary journal.transaction) .installJournal hfile.links_ne_none
    (hlink ▸ (hfile.links_ne _).symm) (hP w₂ hin)
  have hrun : Passes (writeJournal journal) w (1 + (2 + 1)) P () w₃ :=
    hclean.bind (hwrite.bind hrename)
  refine ⟨w₃, hrun, ?_, ?_⟩
  · exact (hin.mono (by simp)).trans hin₃
  · exact (hfile.of_grown hin₃.grown htarget).read

theorem passes_backupExistingFile (slot : Slot) (hbak : w.dir.links (.backup slot) = none)
    (hw : P w) :
    ∃ w', Passes (backupExistingFile slot) w (w.exists slot).toNat P (w.exists slot) w' ∧
      Within [.backup slot] w.dir w'.dir ∧
      w'.dir.links (.backup slot) = w.dir.links (.active slot) := by
  have hlook : Passes (certificateFileExistsRegular (.active slot)) w 0 P (w.exists slot) w :=
    passes_exists _
  cases hex : w.exists slot with
  | false =>
    rw [hex] at hlook
    have hrun : Passes (backupExistingFile slot) w (0 + 0) P false w :=
      hlook.bind (passes_pure false)
    refine ⟨w, hrun, Within.refl _, ?_⟩
    rw [hbak, World.exists_eq_false.1 hex]
  | true =>
    rw [hex] at hlook
    have hact := World.exists_eq_true.1 hex
    have hempty : Passes (certificateFileExistsRegular (.backup slot)) w 0 P false w := by
      have hnone : w.read (.backup slot) = none := read_eq_none.2 hbak
      have hlook' : Passes _ w 0 P (w.read (.backup slot)).isSome w :=
        passes_exists (.backup slot)
      rwa [hnone] at hlook'
    have hlink : Passes (fileOp (.backup slot) fun dir => dir.link (.active slot) (.backup slot))
        w 1 P () (w.after (w.dir.addLink (.active slot) (.backup slot))) := by
      refine passes_fileOp ?_ hw
      rw [link, if_neg hact, if_pos hbak]
    have hrun : Passes (backupExistingFile slot) w (0 + (0 + (1 + 0))) P true
        (w.after (w.dir.addLink (.active slot) (.backup slot))) :=
      hlook.bind (hempty.bind (hlink.bind (passes_pure true)))
    exact ⟨_, hrun, within_addLink _ _ _, links_addLink_self _ _ _⟩

end Operations

/-! ### What recovery does -/

section Recovery

variable {w' : World B T} {names : List (FileName T)}

theorem Cleared.cleanup (h : Cleared names w w') (n : FileName T) :
    Cleared (n :: names) w (w'.after (w'.dir.unlink n)) := by
  have hunlink := within_unlink w'.dir n
  refine ⟨(h.within.mono (by simp)).trans (hunlink.mono (by simp)), fun m hm => ?_⟩
  by_cases hmn : m = n
  · subst hmn
    exact links_unlink_self _ _
  · have hm' : m ∈ names := (List.mem_cons.1 hm).resolve_left hmn
    exact (hunlink.links m (by simpa using hmn)).trans (h.gone m hm')

/-- What is removed last, in every phase. -/
theorem passes_finishRecovery (transaction : T) (h : Cleared names w w') :
    ∃ w'', Passes (do
        cleanupBackup (.temporary .certificate transaction)
        cleanupBackup (.temporary .privateKey transaction)
        cleanupBackup .installJournal) w' (1 + (1 + 1)) (fun _ => True) () w'' ∧
      Cleared (.installJournal :: .temporary .privateKey transaction ::
        .temporary .certificate transaction :: names) w w'' :=
  ⟨_, (passes_cleanupBackup _ trivial).bind
      ((passes_cleanupBackup _ trivial).bind (passes_cleanupBackup _ trivial)),
    ((h.cleanup _).cleanup _).cleanup _⟩

theorem runs_recoverInterruptedInstall_none (hread : w.read .installJournal = none) :
    Runs recoverInterruptedInstall w [] (.ok ()) w := by
  have hjournal : Runs readJournal w [] (.ok none) w := (runs_read hread).bind (runs_pure none)
  exact hjournal.bind (runs_pure ())

variable {journal : CertificateInstallJournal T}

/-- **Before and after publishing** the backups are removed. -/
theorem passes_recoverInterruptedInstall_cleanup
    (hread : w.read .installJournal = some (.install journal))
    (hphase : journal.phase ≠ .publishing) :
    ∃ k w', Passes recoverInterruptedInstall w k (fun _ => True) () w' ∧
      Cleared [.installJournal, .temporary .privateKey journal.transaction,
        .temporary .certificate journal.transaction, .backup .privateKey, .backup .certificate]
        w w' := by
  have hbackup := ((Cleared.nil w).cleanup (.backup .certificate)).cleanup (.backup .privateKey)
  obtain ⟨w', hfin, hcleared⟩ := passes_finishRecovery journal.transaction hbackup
  refine ⟨0 + 0 + (1 + (1 + (1 + (1 + 1)))), w', (passes_readJournal hread).bind ?_, hcleared⟩
  cases hp : journal.phase with
  | prepared =>
    simp only [hp]
    exact (passes_cleanupBackup _ trivial).bind
      ((passes_cleanupBackup _ trivial).bind hfin)
  | published =>
    simp only [hp]
    exact (passes_cleanupBackup _ trivial).bind
      ((passes_cleanupBackup _ trivial).bind hfin)
  | publishing => exact absurd hp hphase

/-- One file is restored from its backup, which stays if both are names of one file; or it is
removed, if there was none. -/
structure Restored (slot : Slot) (existed : Bool) (w w' : World B T) : Prop where
  within : Within [.backup slot, .active slot] w.dir w'.dir
  active : w'.dir.links (.active slot) = if existed then w.dir.links (.backup slot) else none
  backup : w'.dir.links (.backup slot) =
    if existed = true ∧ w.dir.links (.active slot) ≠ w.dir.links (.backup slot) then none
    else w.dir.links (.backup slot)

theorem passes_restoreOriginal (slot : Slot) (existed : Bool)
    (hbak : existed = true → w.dir.links (.backup slot) ≠ none) :
    ∃ k w', Passes (restoreOriginal slot existed) w k (fun _ => True) () w' ∧
      Restored slot existed w w' := by
  cases existed with
  | false =>
    have hunlink := within_unlink w.dir (.active slot)
    exact ⟨_, _, passes_cleanupBackup _ trivial, hunlink.mono (by simp),
      links_unlink_self _ _, hunlink.links _ (by simp)⟩
  | true =>
    have hlink := hbak rfl
    have hlook : Passes (certificateFileExistsRegular (.backup slot)) w 0 (fun _ => True) true
        w := by
      have hsome : (w.read (.backup slot)).isSome = true :=
        Option.isSome_iff_ne_none.2 (mt read_eq_none.1 hlink)
      have hlook' : Passes _ w 0 (fun _ => True) (w.read (.backup slot)).isSome w :=
        passes_exists (.backup slot)
      rwa [hsome] at hlook'
    have hrun : ∀ w', Passes (renameCertificateFile (.backup slot) (.active slot)) w 1
        (fun _ => True) () w' →
        Passes (restoreOriginal slot true) w (0 + 0 + (0 + 1)) (fun _ => True) () w' :=
      fun w' hrename => (hlook.bind (passes_pure ())).bind (hlook.bind hrename)
    by_cases hsame : w.dir.links (.active slot) = w.dir.links (.backup slot)
    · -- two names of one file: the rename has no effect
      refine ⟨_, _, hrun _ (passes_rename_same _ _ hlink hsame trivial), Within.refl _, ?_, ?_⟩
      · exact hsame
      · rw [if_neg fun h => h.2 hsame]
        rfl
    · obtain ⟨w', hrename, hin, htarget, hsource⟩ :=
        passes_rename_move (.backup slot) (.active slot) hlink hsame (P := fun _ => True) trivial
      refine ⟨_, w', hrun w' hrename, hin, htarget, ?_⟩
      rw [if_pos ⟨rfl, hsame⟩, hsource]

/-- **While publishing** both files are restored, one after the other. -/
theorem passes_recoverInterruptedInstall_publishing
    (hread : w.read .installJournal = some (.install journal))
    (hphase : journal.phase = .publishing)
    (hbak : ∀ slot, journal.existed slot = true → w.dir.links (.backup slot) ≠ none) :
    ∃ k w', Passes recoverInterruptedInstall w k (fun _ => True) () w' ∧
      Within (touchedNames journal.transaction) w.dir w'.dir ∧
      w'.dir.links .installJournal = none ∧
      ∀ slot,
        w'.dir.links (.active slot) =
          (if journal.existed slot then w.dir.links (.backup slot) else none) ∧
        w'.dir.links (.backup slot) =
          if journal.existed slot = true ∧ w.dir.links (.active slot) ≠ w.dir.links (.backup slot)
          then none else w.dir.links (.backup slot) := by
  obtain ⟨k₁, w₁, hcert, hrestored₁⟩ := passes_restoreOriginal .certificate journal.certExisted
    (hbak .certificate)
  -- the first restore leaves the key as it was
  have hkey : w₁.dir.links (.backup .privateKey) = w.dir.links (.backup .privateKey) :=
    hrestored₁.within.links _ (by simp)
  have hkey' : w₁.dir.links (.active .privateKey) = w.dir.links (.active .privateKey) :=
    hrestored₁.within.links _ (by simp)
  obtain ⟨k₂, w₂, hprivate, hrestored₂⟩ := passes_restoreOriginal .privateKey journal.keyExisted
    (w := w₁) (hkey ▸ hbak .privateKey)
  obtain ⟨w₃, hfin, hcleared⟩ := passes_finishRecovery journal.transaction (Cleared.nil w₂)
  have hlast : ∀ n, n ∉ [.installJournal, .temporary .privateKey journal.transaction,
      .temporary .certificate journal.transaction] → w₃.dir.links n = w₂.dir.links n :=
    hcleared.within.links
  refine ⟨0 + 0 + (k₁ + (k₂ + (1 + (1 + 1)))), w₃, (passes_readJournal hread).bind ?_, ?_,
    hcleared.gone _ (by simp), ?_⟩
  · simp only [hphase]
    exact hcert.bind (hprivate.bind hfin)
  · refine ((hrestored₁.within.mono ?_).trans (hrestored₂.within.mono ?_)).trans
      (hcleared.within.mono ?_) <;>
    · simp [touchedNames, transactionNames, pendingNames]
  · intro slot
    cases slot with
    | certificate =>
      constructor
      · rw [hlast _ (by simp), hrestored₂.within.links _ (by simp), hrestored₁.active]
        rfl
      · rw [hlast _ (by simp), hrestored₂.within.links _ (by simp), hrestored₁.backup]
        rfl
    | privateKey =>
      constructor
      · rw [hlast _ (by simp), hrestored₂.active, hkey]
        rfl
      · rw [hlast _ (by simp), hrestored₂.backup, hkey, hkey']
        rfl

end Recovery

end Fluxheim.Acme
