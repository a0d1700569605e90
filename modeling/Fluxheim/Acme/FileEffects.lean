import Fluxheim.Acme.CertificateStore

/-!
# What the file operations do to the directory

Each operation of the certificate store, as a change of what the names of the directory read.
-/

namespace Fluxheim.Acme

open Crash Crash.Prog Directory

variable {B T : Type}

/-- What a name reads. -/
def World.read (w : World B T) (n : FileName T) : Option (Contents B T) := w.dir.read n

/-- The change of one name. -/
structure Sets (w w' : World B T) (n : FileName T) (v : Option (Contents B T)) : Prop where
  value : w'.read n = v
  frame : ∀ m, m ≠ n → w'.read m = w.read m
  revoked : w'.revoked = w.revoked

section Look

variable {w : World B T} {n : FileName T} {Q : Unit → World B T → Prop}
  {E : AcmeCertificateInstallError T → World B T → Prop} {I : World B T → Prop}

theorem wp_exists {Q : Bool → World B T → Prop} (h : Q (w.read n).isSome w) :
    wp (certificateFileExistsRegular n) Q E I w :=
  wp_look h

theorem wp_ensureExistingRegularFile (hok : w.read n ≠ none → Q () w)
    (herr : w.read n = none → ∀ e, E e w) : wp (ensureExistingRegularFile n) Q E I w := by
  refine wp_bind (wp_exists ?_)
  cases hn : w.read n with
  | none => exact wp_fail (herr hn _)
  | some c => exact wp_pure (hok (by rw [hn]; nofun))

theorem wp_ensureCertificateSlotAbsent (hok : w.read n = none → Q () w)
    (herr : w.read n ≠ none → ∀ e, E e w) : wp (ensureCertificateSlotAbsent n) Q E I w := by
  refine wp_bind (wp_exists ?_)
  cases hn : w.read n with
  | none => exact wp_pure (hok hn)
  | some c => exact wp_fail (herr (by rw [hn]; nofun) _)

theorem ensureQuarantinedPair_spec {I : World B T → Prop} (transaction : T) :
    wp (ensureQuarantinedPair transaction) (fun _ w' => w' = w) (fun _ w' => w' = w) I w := by
  refine wp_bind (wp_ensureCertificateSlotAbsent (fun _ => ?_) fun _ _ => rfl)
  refine wp_bind (wp_ensureCertificateSlotAbsent (fun _ => ?_) fun _ _ => rfl)
  refine wp_bind (wp_ensureExistingRegularFile (fun _ => ?_) fun _ _ => rfl)
  exact wp_ensureExistingRegularFile (fun _ => rfl) fun _ _ => rfl

theorem readQuarantinedLeaf_spec (journal : RevocationJournal T) (leaf : Bool) :
    wp (readQuarantinedLeaf journal leaf) (fun _ w' => w' = w) (fun _ w' => w' = w) I w := by
  refine wp_bind (wp_ensureExistingRegularFile (fun _ => ?_) fun _ _ => rfl)
  cases leaf with
  | false => exact wp_fail rfl
  | true => exact wp_pure rfl

end Look

variable [DecidableEq B] [DecidableEq T]

/-- The effect of a rename. -/
structure Moves (w w' : World B T) (source target : FileName T) : Prop where
  source_ne : w.read source ≠ none
  value : w'.read target = w.read source
  frame : ∀ m, m ≠ source → m ≠ target → w'.read m = w.read m
  gone : w'.read source = none ∨ w'.read source = w.read source ∧ w.read target = w.read source
  revoked : w'.revoked = newlyRevoked w.dir w'.dir ++ w.revoked

variable {d d' : Directory (FileName T) (Contents B T)}

theorem newlyRevoked_of_eq
    (h : d.read .revocationJournal = d'.read .revocationJournal) : newlyRevoked d d' = [] :=
  if_pos h

/-- Only a journal in the remote-pending phase adds to the record. -/
theorem newlyRevoked_of_phase
    (h : ∀ transaction, d'.read .revocationJournal ≠
      some (.revocation ⟨transaction, .remotePending⟩)) :
    newlyRevoked d d' = [] := by
  unfold newlyRevoked
  split_ifs with hsame
  · rfl
  · split
    · rename_i transaction hread
      exact absurd hread (h transaction)
    · rfl

theorem Moves.revoked_eq {w w' : World B T} {source target : FileName T}
    (h : Moves w w' source target)
    (hs : source ≠ .revocationJournal) (ht : target ≠ .revocationJournal) :
    w'.revoked = w.revoked := by
  have hsame : w.dir.read .revocationJournal = w'.dir.read .revocationJournal :=
    (h.frame _ hs.symm ht.symm).symm
  rw [h.revoked, newlyRevoked_of_eq hsame, List.nil_append]

section Rules

variable {w : World B T} {n source target : FileName T} {c : Contents B T}
  {Q : Unit → World B T → Prop} {E : AcmeCertificateInstallError T → World B T → Prop}
  {I : World B T → Prop}

theorem wp_fileOp {f : Directory (FileName T) (Contents B T) →
      Except DirError (Directory (FileName T) (Contents B T))} (hI : I w)
    (hok : ∀ dir, f w.dir = .ok dir → Q () ⟨dir, newlyRevoked w.dir dir ++ w.revoked⟩)
    (herr : ∀ e, f w.dir = .error e → E (.io n e) w) : wp (fileOp n f) Q E I w := by
  refine wp_op hI (fun _ w' h => ?_) fun e h => ?_
  · cases hf : f w.dir with
    | error e => rw [hf] at h; cases h
    | ok dir =>
      rw [hf] at h
      cases h
      exact hok dir hf
  · cases hf : f w.dir with
    | error e' =>
      rw [hf] at h
      cases h
      exact herr e' hf
    | ok dir => rw [hf] at h; cases h

theorem wp_cleanupBackup (hI : I w) (hok : ∀ w', Sets w w' n none → Q () w') :
    wp (cleanupBackup n) Q E I w := by
  refine wp_fileOp hI (fun dir h => hok _ ?_) nofun
  cases h
  refine ⟨?_, fun m hm => ?_, ?_⟩
  · exact read_unlink.trans (if_pos rfl)
  · exact read_unlink.trans (if_neg hm)
  · -- a journal that is removed adds nothing, nor does one that stays
    have hnew : newlyRevoked w.dir (w.dir.unlink n) = [] := by
      by_cases hn : FileName.revocationJournal = n
      · refine newlyRevoked_of_phase fun transaction => ?_
        rw [read_unlink, if_pos hn]
        nofun
      · exact newlyRevoked_of_eq (read_unlink.trans (if_neg hn)).symm
    simp only [hnew, List.nil_append]

theorem wp_writeNewFile (hn : n ≠ .revocationJournal) (hI : I w)
    (htorn : ∀ w', Sets w w' n (some .torn) → I w') (hok : ∀ w', Sets w w' n (some c) → Q () w')
    (herr : w.read n ≠ none → E (.io n .alreadyExists) w) : wp (writeNewFile n c) Q E I w := by
  have hcreate : Sets w ⟨w.dir.addFile n .torn, w.revoked⟩ n (some .torn) :=
    ⟨read_addFile.trans (if_pos rfl),
      fun m hm => read_addFile.trans (if_neg hm), rfl⟩
  refine wp_bind (wp_fileOp hI (fun dir h => ?_) fun e h => ?_)
  · obtain rfl := create_eq_ok h
    rw [newlyRevoked_of_eq (hcreate.frame _ hn.symm).symm]
    obtain ⟨dir', hwrite, hread⟩ := w.dir.overwrite_addFile n .torn c
    refine wp_fileOp (htorn _ hcreate) (fun dir hdir => ?_) fun e he => ?_
    · rw [hwrite] at hdir
      cases hdir
      refine hok _ ⟨(hread n).trans (if_pos rfl), fun m hm => (hread m).trans (if_neg hm), ?_⟩
      have hsame : (w.dir.addFile n .torn).read .revocationJournal =
          dir'.read .revocationJournal := by
        rw [hread, if_neg hn.symm]
        exact hcreate.frame _ hn.symm
      simp only [newlyRevoked_of_eq hsame, List.nil_append]
    · rw [hwrite] at he
      cases he
  · have hex := create_error h
    unfold create at h
    split_ifs at h
    cases h
    exact herr hex

theorem wp_renameCertificateFile (hne : source ≠ target) (hI : I w)
    (hok : ∀ w', Moves w w' source target → Q () w') (herr : w.read source = none → ∀ e, E e w) :
    wp (renameCertificateFile source target) Q E I w := by
  refine wp_fileOp hI (fun dir h => hok _ ?_) fun e h => herr (rename_error h) _
  obtain ⟨hsource, hv, hfra, hgone⟩ := read_rename h hne
  refine ⟨hsource, hv, hfra, ?_, rfl⟩
  rcases hgone with hgone | ⟨rfl, hsame⟩
  · exact Or.inl hgone
  · exact Or.inr ⟨rfl, hsame⟩

/-- A backup is a second name for the active file. -/
theorem wp_backupExistingFile {slot : Slot} {Q : Bool → World B T → Prop} (hI : I w)
    (hbacked : ∀ w', Sets w w' (.backup slot) (w.read (.active slot)) → Q true w')
    (hnone : Q false w) (herr : ∀ e, E e w) : wp (backupExistingFile slot) Q E I w := by
  refine wp_bind (wp_exists ?_)
  cases hact : w.read (.active slot) with
  | none => exact wp_pure hnone
  | some c =>
    refine wp_bind (wp_exists ?_)
    cases hbak : w.read (.backup slot) with
    | some c' => exact wp_fail (herr _)
    | none =>
      refine wp_bind (wp_fileOp hI (fun dir h => wp_pure (hbacked _ ?_)) fun _ _ => herr _)
      obtain ⟨-, hread⟩ := read_link h
      refine ⟨(hread _).trans (if_pos rfl), fun m hm => (hread m).trans (if_neg hm), ?_⟩
      have hsame : w.dir.read .revocationJournal = dir.read .revocationJournal :=
        ((hread _).trans (if_neg nofun)).symm
      simp only [newlyRevoked_of_eq hsame, List.nil_append]

end Rules

end Fluxheim.Acme
