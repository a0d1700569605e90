import Fluxheim.Lib.Run
import Fluxheim.Acme.RevocationSafety

/-!
# A revoked certificate stays out

Installs, recoveries and revocations in any order, each cut off anywhere.  Every state of such a run
is safe, if no revocation begins while the journal of an interrupted install still asks for a backup
to be restored.
-/

namespace Fluxheim.Acme

open Crash Crash.Prog Run

variable {B T : Type} [DecidableEq B] [DecidableEq T] {w : World B T}

/-- Writing a journal file next to its place, where nothing reads it. -/
theorem wp_writeTemporary {n : FileName T} (hn : n.scratch = true) {c : Contents B T}
    {Q : Unit → World B T → Prop} {E : AcmeCertificateInstallError T → World B T → Prop}
    (h : Safe w) {next : FileProg B T Unit}
    (hnext : ∀ w', Safe w' → Sets w w' n (some c) → wp next Q E Safe w') :
    wp (do cleanupBackup n; writeNewFile n c; next) Q E Safe w := by
  have hne : n ≠ .revocationJournal := by
    rintro rfl
    cases hn
  refine wp_bind (wp_cleanupBackup h fun w₁ hclear => ?_)
  have h₁ := h.cleanup hclear
  have hset : ∀ {w' : World B T} {v}, Sets w₁ w' n v → Sets w w' n v := fun hset =>
    ⟨hset.value, fun m hm => (hset.frame m hm).trans (hclear.frame m hm),
      hset.revoked.trans hclear.revoked⟩
  refine wp_bind (wp_writeNewFile hne h₁ (fun w₂ htorn => h₁.scratch hn htorn)
    (fun w₂ hfull => ?_) ?_)
  · exact hnext w₂ (h₁.scratch hn hfull) (hset hfull)
  · exact fun hex => absurd hclear.value hex

theorem writeJournal_spec (h : Safe w) (journal : CertificateInstallJournal T)
    (hbak : journal.phase = .publishing → ∀ slot, journal.existed slot = true →
      Clean w (.backup slot)) :
    wp (writeJournal journal)
      (fun _ w' => Safe w' ∧
        Keeps .installJournal (.installJournalTemporary journal.transaction) w w')
      (fun _ _ => False) Safe w := by
  refine wp_writeTemporary rfl h fun w₁ h₁ hset => ?_
  refine wp_renameCertificateFile nofun h₁ (fun w₂ hmove => ?_) fun hnone => ?_
  · have heff := hmove.effect nofun nofun
    refine ⟨h₁.installJournal heff (hmove.value.trans hset.value) ?_, fun k hk hk' => ?_, ?_⟩
    · intro hphase slot hexist
      exact (hbak hphase slot hexist).effect hset.effect nofun
    · exact (hmove.frame k hk' hk).trans (hset.frame k hk')
    · exact heff.revoked.trans hset.revoked
  · rw [hset.value] at hnone
    cases hnone

/-! ### Installs -/

section Cleanup

variable {w₀ : World B T} {n : FileName T} {Q : Unit → World B T → Prop}
  {E : AcmeCertificateInstallError T → World B T → Prop}

/-- Removing a file last. -/
theorem wp_cleanup_last (h : Stays w₀ w) (hQ : ∀ w', Stays w₀ w' → Q () w') :
    wp (cleanupBackup n) Q E Safe w :=
  wp_cleanupBackup h.1 fun w' hset => hQ w' ⟨h.1.cleanup hset, hset.revoked.trans h.2⟩

/-- Removing a file before something else. -/
theorem wp_cleanup_next {next : FileProg B T Unit} (h : Stays w₀ w)
    (hnext : ∀ w', Stays w₀ w' → wp next Q E Safe w') : wp (do cleanupBackup n; next) Q E Safe w :=
  wp_bind (wp_cleanup_last h hnext)

end Cleanup

/-- Restoring one of the two files. -/
theorem restoreOriginal_spec (h : Safe w) (slot : Slot) (existed : Bool)
    (hclean : existed = true → Clean w (.backup slot)) :
    wp (restoreOriginal slot existed)
      (fun _ w' => Stays w w' ∧ ∀ m, m ≠ .active slot → Clean w m → Clean w' m)
      (fun _ w' => Stays w w') Safe w := by
  cases existed with
  | true =>
    refine wp_bind (wp_ensureExistingRegularFile (fun hex => ?_) fun _ _ => ⟨h, rfl⟩)
    refine wp_bind (wp_exists ?_)
    cases hread : w.read (.backup slot) with
    | none => exact absurd hread hex
    | some c =>
      refine wp_renameCertificateFile nofun h (fun w' hmove => ?_) fun _ _ => ⟨h, rfl⟩
      have heff := hmove.effect nofun nofun
      exact ⟨⟨h.move hmove (hclean rfl) nofun nofun nofun, heff.revoked⟩,
        fun m hm hw => hw.effect heff hm⟩
  | false =>
    refine wp_cleanupBackup h fun w' hset => ?_
    exact ⟨⟨h.cleanup hset, hset.revoked⟩, fun m hm hw => hw.effect hset.effect hm⟩

theorem recoverInterruptedInstall_spec (h : Safe w) :
    wp recoverInterruptedInstall (fun _ w' => Stays w w') (fun _ w' => Stays w w') Safe w := by
  have hstay : Stays w w := ⟨h, rfl⟩
  refine wp_bind (wp_bind (wp_look ?_))
  cases hread : w.dir.read .installJournal with
  | none => exact wp_pure (wp_pure hstay)
  | some text =>
    cases text with
    | torn => exact wp_fail hstay
    | bytes bytes => exact wp_fail hstay
    | revocation journal => exact wp_fail hstay
    | install journal =>
      refine wp_pure ?_
      -- the end of the recovery is the same after each phase
      have hfin : ∀ w₁, Stays w w₁ →
          wp (do
              cleanupBackup (.temporary .certificate journal.transaction)
              cleanupBackup (.temporary .privateKey journal.transaction)
              cleanupBackup .installJournal)
            (fun _ w' => Stays w w') (fun _ w' => Stays w w') Safe w₁ := by
        intro w₁ h₁
        refine wp_cleanup_next h₁ fun w₂ h₂ => ?_
        refine wp_cleanup_next h₂ fun w₃ h₃ => ?_
        exact wp_cleanup_last h₃ fun w₄ h₄ => h₄
      cases hphase : journal.phase with
      | prepared =>
        simp only [hphase]
        exact wp_cleanup_next hstay fun w₁ h₁ => wp_cleanup_next h₁ hfin
      | publishing =>
        simp only [hphase]
        have hbak := h.backup journal hread hphase
        refine wp_call (restoreOriginal_spec h .certificate _ (hbak .certificate))
          (fun _ _ h' => h') (fun _ h' => h') fun _ w₁ h₁ => ?_
        have hkey : journal.keyExisted = true → Clean w₁ (.backup .privateKey) :=
          fun hexist => h₁.2 _ nofun (hbak .privateKey hexist)
        refine wp_call (restoreOriginal_spec h₁.1.1 .privateKey _ hkey)
          (fun _ _ h' => ⟨h'.1, h'.2.trans h₁.1.2⟩) (fun _ h' => h') fun _ w₂ h₂ => ?_
        exact hfin w₂ ⟨h₂.1.1, h₂.1.2.trans h₁.1.2⟩
      | published =>
        simp only [hphase]
        exact wp_cleanup_next hstay fun w₁ h₁ => wp_cleanup_next h₁ hfin

/-- An install that has its journal on disk has clean files to publish. -/
theorem stageInstall_spec (h : Safe w) (transaction : T) {chain privateKey : B}
    (hcert : .bytes chain ∉ w.revoked) (hkey : .bytes privateKey ∉ w.revoked) :
    wp (stageInstall transaction chain privateKey)
      (fun _ w' => Safe w' ∧ ∀ slot, Clean w' (.temporary slot transaction))
      (fun _ w' => Safe w') Safe w := by
  refine wp_bind (wp_writeNewFile nofun h (fun _ htorn => h.scratch rfl htorn)
    (fun w₁ hset₁ => ?_) fun _ => h)
  have h₁ := h.scratch rfl hset₁
  have hcert₁ : Clean w₁ (.temporary .certificate transaction) := by
    intro c hc
    rw [hset₁.value] at hc
    cases hc
    rw [hset₁.revoked]
    exact hcert
  refine wp_bind (wp_writeNewFile nofun h₁ (fun _ htorn => h₁.scratch rfl htorn)
    (fun w₂ hset₂ => ?_) fun _ => h₁)
  have h₂ := h₁.scratch rfl hset₂
  have hkey₂ : Clean w₂ (.temporary .privateKey transaction) := by
    intro c hc
    rw [hset₂.value] at hc
    cases hc
    rw [hset₂.revoked, hset₁.revoked]
    exact hkey
  have hcert₂ := hcert₁.effect hset₂.effect nofun
  refine wp_mono (writeJournal_spec h₂ _ nofun) (fun _ w₃ h₃ => ⟨h₃.1, fun slot => ?_⟩)
    (fun _ _ h => h.elim) fun _ h => h
  cases slot with
  | certificate => exact hcert₂.keeps h₃.2 nofun nofun
  | privateKey => exact hkey₂.keeps h₃.2 nofun nofun

/-- A backup of a file that is active is clean. -/
theorem backupExistingFile_spec (h : Safe w) (slot : Slot) :
    wp (backupExistingFile slot)
      (fun backedUp w' => Safe w' ∧ (backedUp = true → Clean w' (.backup slot)) ∧
        ∀ m, m ≠ .backup slot → Clean w m → Clean w' m)
      (fun _ w' => Safe w') Safe w := by
  refine wp_backupExistingFile h (fun w' hset => ?_) ⟨h, nofun, fun _ _ hm => hm⟩ fun _ => h
  have hclean : Clean w' (.backup slot) := (h.active slot).of_eq hset.value hset.revoked
  exact ⟨h.effect hset.effect (Or.inr hclean) nofun nofun, fun _ => hclean,
    fun m hm hw => hw.effect hset.effect hm⟩

theorem publishInstall_spec (h : Safe w) (transaction : T)
    (htemp : ∀ slot, Clean w (.temporary slot transaction)) :
    wp (publishInstall transaction) (fun _ w' => Safe w') (fun _ w' => Safe w') Safe w := by
  refine wp_call (backupExistingFile_spec h .certificate) (fun _ _ h' => h') (fun _ h' => h')
    fun certBackedUp w₁ ⟨h₁, hcert₁, hkept₁⟩ => ?_
  refine wp_call (backupExistingFile_spec h₁ .privateKey) (fun _ _ h' => h') (fun _ h' => h')
    fun keyBackedUp w₂ ⟨h₂, hkey₂, hkept₂⟩ => ?_
  -- the journal asks only for backups that have just been made
  have hbak : ∀ slot, (CertificateInstallJournal.mk transaction certBackedUp keyBackedUp
      .publishing).existed slot = true → Clean w₂ (.backup slot) := by
    intro slot hexist
    cases slot with
    | certificate => exact hkept₂ _ nofun (hcert₁ hexist)
    | privateKey => exact hkey₂ hexist
  refine wp_call (writeJournal_spec h₂ _ fun _ => hbak) (fun _ _ h' => h'.elim)
    (fun _ h' => h') fun _ w₃ ⟨h₃, hkeep₃⟩ => ?_
  have htemp₃ : ∀ slot, Clean w₃ (.temporary slot transaction) := by
    intro slot
    have htemp₂ : Clean w₂ (.temporary slot transaction) :=
      hkept₂ _ nofun (hkept₁ _ nofun (htemp slot))
    exact htemp₂.keeps hkeep₃ nofun nofun
  refine wp_bind (wp_renameCertificateFile nofun h₃ (fun w₄ hmove₄ => ?_) fun _ _ => h₃)
  have h₄ := h₃.move hmove₄ (htemp₃ _) nofun nofun nofun
  have hkey₄ := (htemp₃ .privateKey).effect (hmove₄.effect nofun nofun) nofun
  refine wp_bind (wp_renameCertificateFile nofun h₄ (fun w₅ hmove₅ => ?_) fun _ _ => h₄)
  have h₅ := h₄.move hmove₅ hkey₄ nofun nofun nofun
  refine wp_call (writeJournal_spec h₅ _ nofun) (fun _ _ h' => h'.elim) (fun _ h' => h')
    fun _ w₆ ⟨h₆, _⟩ => ?_
  refine wp_cleanup_next ⟨h₆, rfl⟩ fun w₇ h₇ => ?_
  refine wp_cleanup_next h₇ fun w₈ h₈ => ?_
  exact wp_cleanup_last h₈ fun w₉ h₉ => h₉.1

/-! ### Revocations -/

theorem writeRevocationJournal_spec (h : Safe w) (journal : RevocationJournal T)
    (hphase : journal.phase ≠ .remotePending)
    (hquarantine : journal.phase.preRemote = true → ∀ slot,
      Clean w (.quarantined slot journal.transaction)) :
    wp (writeRevocationJournal journal)
      (fun _ w' => Safe w' ∧
        Keeps .revocationJournal (.revocationJournalTemporary journal.transaction) w w')
      (fun _ _ => False) Safe w := by
  refine wp_writeTemporary rfl h fun w₁ h₁ hset => ?_
  refine wp_renameCertificateFile nofun h₁ (fun w₂ hmove => ?_) fun hnone => ?_
  · have hread : w₂.read .revocationJournal = some (.revocation journal) :=
      hmove.value.trans hset.value
    have hrevoked : w₂.revoked = w₁.revoked := by
      rw [hmove.revoked, newlyRevoked_of_phase, List.nil_append]
      intro transaction hpending
      change w₂.read .revocationJournal = _ at hpending
      rw [hread] at hpending
      cases hpending
      exact hphase rfl
    have heff := hmove.effect_of_revoked hrevoked
    refine ⟨h₁.revocationJournal heff hread fun hpre slot => ?_, fun k hk hk' => ?_, ?_⟩
    · exact (hquarantine hpre slot).effect hset.effect nofun
    · exact (hmove.frame k hk' hk).trans (hset.frame k hk')
    · exact hrevoked.trans hset.revoked
  · rw [hset.value] at hnone
    cases hnone

/-- **The step after which the pair in quarantine must not come back.** -/
theorem writeRemotePending_spec (h : Safe w) (transaction : T)
    (hact : ∀ slot, w.read (.active slot) = none) (hbak : NoBackupWanted w) :
    wp (writeRevocationJournal ⟨transaction, .remotePending⟩) (fun _ w' => Safe w')
      (fun _ _ => False) Safe w := by
  refine wp_writeTemporary rfl h fun w₁ h₁ hset => ?_
  refine wp_renameCertificateFile nofun h₁ (fun w₂ hmove => ?_) fun hnone => ?_
  · have hkept : ∀ m, m ≠ .revocationJournalTemporary transaction → m ≠ .revocationJournal →
        w₂.read m = w.read m :=
      fun m hm hm' => (hmove.frame m hm hm').trans (hset.frame m hm)
    refine Safe.remotePending (fun slot => ?_) ?_ (hmove.value.trans hset.value)
    · exact (hkept (.active slot) nofun nofun).trans (hact slot)
    · exact hbak.of_eq (hkept .installJournal nofun nofun)
  · rw [hset.value] at hnone
    cases hnone

theorem restoreQuarantinedFile_spec (h : Safe w) (slot : Slot) (transaction : T)
    (hclean : Clean w (.quarantined slot transaction)) :
    wp (restoreQuarantinedFile slot transaction) (fun _ w' => Reverted w w')
      (fun _ w' => Safe w') Safe w := by
  refine wp_bind (wp_exists (wp_bind (wp_exists ?_)))
  cases hact : w.read (.active slot) with
  | some c =>
    cases hquarantine : w.read (.quarantined slot transaction) with
    | none => exact wp_pure (Reverted.refl h)
    | some c' => exact wp_fail h
  | none =>
    cases hquarantine : w.read (.quarantined slot transaction) with
    | none => exact wp_fail h
    | some c' =>
      refine wp_bind (wp_ensureCertificateSlotAbsent (fun _ => ?_) fun _ _ => h)
      refine wp_renameCertificateFile nofun h (fun w' hmove => ?_) fun _ _ => h
      have heff := hmove.effect nofun nofun
      exact ⟨h.move hmove hclean nofun nofun nofun, fun m hm => heff.others m (hm slot),
        hmove.frame _ nofun nofun, heff.revoked⟩

theorem restoreQuarantinedPair_spec (h : Safe w) (transaction : T)
    (hclean : ∀ slot, Clean w (.quarantined slot transaction)) :
    wp (restoreQuarantinedPair transaction) (fun _ w' => Reverted w w')
      (fun _ w' => Safe w') Safe w := by
  refine wp_call (restoreQuarantinedFile_spec h .certificate transaction (hclean _))
    (fun _ _ h' => h') (fun _ h' => h') fun _ w₁ h₁ => ?_
  have hkey : Clean w₁ (.quarantined .privateKey transaction) := h₁.clean nofun (hclean _)
  refine wp_call (restoreQuarantinedFile_spec h₁.safe .privateKey transaction hkey)
    (fun _ _ h' => h') (fun _ h' => h') fun _ w₂ h₂ => ?_
  refine wp_bind (wp_ensureExistingRegularFile (fun _ => ?_) fun _ _ => h₂.safe)
  exact wp_ensureExistingRegularFile (fun _ => h₁.trans h₂) fun _ _ => h₂.safe

/-- Removing the journal at the end. -/
theorem clearRevocationJournal_spec {w₀ : World B T} (h : Reverted w₀ w) :
    wp clearRevocationJournal (fun _ w' => Reverted w₀ w') (fun _ w' => Safe w') Safe w := by
  refine wp_cleanupBackup h.safe fun w' hset => h.trans ?_
  refine ⟨h.safe.cleanup hset, fun m _ => ?_, hset.frame _ nofun, hset.revoked⟩
  by_cases hm : m = .revocationJournal
  · subst hm
    exact Or.inr hset.value
  · exact Or.inl (hset.frame m hm)

/-- Giving up a revocation. -/
theorem dropQuarantine_spec (h : Safe w) (journal : RevocationJournal T)
    (hclean : journal.phase.preRemote = true → ∀ slot,
      Clean w (.quarantined slot journal.transaction)) :
    wp (dropQuarantine journal) (fun _ w' => Safe w') (fun _ w' => Safe w') Safe w := by
  unfold dropQuarantine
  split_ifs with hphase
  · refine wp_bind (wp_attempt ?_)
    refine wp_call (restoreQuarantinedPair_spec h _ (hclean hphase)) (fun _ _ h' => wp_pure h')
      (fun _ h' => h') fun _ w₁ h₁ => ?_
    exact wp_mono (clearRevocationJournal_spec h₁) (fun _ _ h' => wp_pure h'.safe)
      (fun _ _ h' => wp_pure h') fun _ h' => h'
  · exact wp_pure h

theorem wp_orDrop {α : Type} {journal : RevocationJournal T} {program : FileProg B T α}
    {Q : α → World B T → Prop}
    (h : wp program Q
      (fun _ w' => Safe w' ∧ (journal.phase.preRemote = true → ∀ slot,
        Clean w' (.quarantined slot journal.transaction))) Safe w) :
    wp (orDrop journal program) Q (fun _ w' => Safe w') Safe w := by
  refine wp_bind (wp_attempt (wp_mono h (fun _ _ h' => wp_pure h') (fun e w' h' => ?_)
    fun _ h' => h'))
  exact wp_call (dropQuarantine_spec h'.1 journal h'.2) (fun _ _ h'' => h'') (fun _ h'' => h'')
    fun _ _ h'' => wp_fail h''

variable {transaction : T}

/-- Moving one of the two files into quarantine, where its name is unused. -/
theorem quarantine_move {w' : World B T} {slot : Slot} (h : Safe w)
    (hmove : Moves w w' (.active slot) (.quarantined slot transaction))
    (hunused : w.read (.quarantined slot transaction) = none) :
    Safe w' ∧ Clean w' (.quarantined slot transaction) ∧ w'.read (.active slot) = none :=
  ⟨h.move hmove (h.active slot) nofun nofun nofun,
    (h.active slot).of_eq hmove.value (hmove.revoked_eq nofun nofun), hmove.source_eq_none hunused⟩

/-- A revocation that has begun: the pair is in quarantine, and nothing is active. -/
structure Quarantined (transaction : T) (w : World B T) : Prop where
  safe : Safe w
  clean : ∀ slot, Clean w (.quarantined slot transaction)
  active : ∀ slot, w.read (.active slot) = none
  backup : NoBackupWanted w

theorem markRemotePending_spec (h : Quarantined transaction w) :
    wp (markRemotePending ⟨transaction, .pairQuarantined⟩)
      (fun journal w' => journal = ⟨transaction, .remotePending⟩ ∧ Safe w') (fun _ _ => False)
      Safe w :=
  wp_call (writeRemotePending_spec h.safe transaction h.active h.backup) (fun _ _ h' => h')
    (fun _ h' => h') fun _ _ h' => wp_pure ⟨rfl, h'⟩

theorem markRemoteConfirmed_spec (h : Safe w) (transaction : T) :
    wp (markRemoteConfirmed ⟨transaction, .remotePending⟩)
      (fun journal w' => journal = ⟨transaction, .remoteConfirmed⟩ ∧ Safe w') (fun _ _ => False)
      Safe w :=
  wp_call (writeRevocationJournal_spec h ⟨transaction, .remoteConfirmed⟩ nofun nofun)
    (fun _ _ h' => h') (fun _ h' => h') fun _ _ h' => wp_pure ⟨rfl, h'.1⟩

variable [ToString T]

theorem recoverInterruptedRevocation_spec (h : Safe w) :
    wp recoverInterruptedRevocation (fun _ w' => Reverted w w') (fun _ w' => Safe w') Safe w := by
  refine wp_bind (wp_bind (wp_look ?_))
  cases hread : w.dir.read .revocationJournal with
  | none => exact wp_pure (wp_pure (Reverted.refl h))
  | some text =>
    cases text with
    | torn => exact wp_fail h
    | bytes bytes => exact wp_fail h
    | install journal => exact wp_fail h
    | revocation journal =>
      refine wp_pure ?_
      -- before the authority is asked the pair is restored, afterwards it is left alone
      have hres : journal.phase.preRemote = true →
          wp (do restoreQuarantinedPair journal.transaction; clearRevocationJournal)
            (fun _ w' => Reverted w w') (fun _ w' => Safe w') Safe w := fun hphase =>
        wp_call (restoreQuarantinedPair_spec h _ (h.quarantine journal hread hphase))
          (fun _ _ h' => h') (fun _ h' => h') fun _ _ h₁ => clearRevocationJournal_spec h₁
      obtain ⟨transaction, phase⟩ := journal
      cases phase with
      | prepared => exact hres rfl
      | pairQuarantined => exact hres rfl
      | remotePending =>
        refine wp_call (ensureQuarantinedPair_spec transaction) (fun _ _ h' => ?_)
          (fun _ h' => h') fun _ w₁ h' => ?_
        · rw [h']
          exact h
        · rw [h']
          exact wp_fail h
      | remoteConfirmed =>
        refine wp_call (ensureQuarantinedPair_spec transaction) (fun _ _ h' => ?_)
          (fun _ h' => h') fun _ w₁ h' => ?_
        · rw [h']
          exact h
        · rw [h']
          exact clearRevocationJournal_spec (Reverted.refl h)

theorem begin_spec (h : Safe w)
    (hunused : ∀ slot, w.read (.quarantined slot transaction) = none) (hbak : NoBackupWanted w) :
    wp (beginManagedCertificateQuarantine transaction)
      (fun journal w' => journal = ⟨transaction, .pairQuarantined⟩ ∧ Quarantined transaction w')
      (fun _ w' => Safe w') Safe w := by
  refine wp_call (recoverInterruptedRevocation_spec h) (fun _ _ h' => h') (fun _ h' => h')
    fun _ w₁ hrev => ?_
  have h₁ := hrev.safe
  have hunused₁ : ∀ slot, w₁.read (.quarantined slot transaction) = none := by
    intro slot
    rcases hrev.others (.quarantined slot transaction) nofun with hsame | hnone
    · exact hsame.trans (hunused slot)
    · exact hnone
  refine wp_bind (wp_ensureExistingRegularFile (fun _ => ?_) fun _ _ => h₁)
  refine wp_bind (wp_ensureExistingRegularFile (fun hkey => ?_) fun _ _ => h₁)
  refine wp_call (writeRevocationJournal_spec h₁ ⟨transaction, .prepared⟩ nofun
      fun _ slot => Clean.of_none (hunused₁ slot))
    (fun _ _ h' => h'.elim) (fun _ h' => h') fun _ w₂ ⟨h₂, hkeep₂⟩ => ?_
  refine wp_bind (wp_renameCertificateFile nofun h₂ (fun w₃ hmove₃ => ?_) fun _ _ => h₂)
  have hunused₂ : ∀ slot, w₂.read (.quarantined slot transaction) = none := fun slot =>
    (hkeep₂.1 (.quarantined slot transaction) nofun nofun).trans (hunused₁ slot)
  obtain ⟨h₃, hcert₃, hgone₃⟩ := quarantine_move h₂ hmove₃ (hunused₂ _)
  have hunused₃ : w₃.read (.quarantined .privateKey transaction) = none :=
    (hmove₃.frame (.quarantined .privateKey transaction) nofun nofun).trans (hunused₂ _)
  have hkey₃ : w₃.read (.active .privateKey) ≠ none := by
    rw [hmove₃.frame (.active .privateKey) nofun nofun, hkeep₂.1 (.active .privateKey) nofun nofun]
    exact hkey
  refine wp_bind (wp_attempt (wp_renameCertificateFile nofun h₃ (fun w₄ hmove₄ => ?_)
    fun hnone => absurd hnone hkey₃))
  obtain ⟨h₄, hkey₄, hgone₄⟩ := quarantine_move h₃ hmove₄ hunused₃
  have hclean₄ : ∀ slot, Clean w₄ (.quarantined slot transaction) := by
    intro slot
    cases slot with
    | certificate => exact hcert₃.effect (hmove₄.effect nofun nofun) nofun
    | privateKey => exact hkey₄
  refine wp_call (writeRevocationJournal_spec h₄ ⟨transaction, .pairQuarantined⟩ nofun
      fun _ => hclean₄)
    (fun _ _ h' => h'.elim) (fun _ h' => h') fun _ w₅ ⟨h₅, hkeep₅⟩ => ?_
  refine wp_pure ⟨rfl, h₅, fun slot => (hclean₄ slot).keeps hkeep₅ nofun nofun, fun slot => ?_, ?_⟩
  · rw [hkeep₅.1 (.active slot) nofun nofun]
    cases slot with
    | certificate => exact (hmove₄.frame (.active .certificate) nofun nofun).trans hgone₃
    | privateKey => exact hgone₄
  · refine hbak.of_eq ?_
    rw [hkeep₅.1 .installJournal nofun nofun, hmove₄.frame .installJournal nofun nofun,
      hmove₃.frame .installJournal nofun nofun, hkeep₂.1 .installJournal nofun nofun, hrev.journal]

theorem revoke_spec (h : Safe w)
    (hunused : ∀ slot, w.read (.quarantined slot transaction) = none) (hbak : NoBackupWanted w)
    (leaf conf : Bool) :
    wp (revokeInstantAcmeCertificate transaction leaf conf) (fun _ w' => Safe w')
      (fun _ w' => Safe w') Safe w := by
  refine wp_call (begin_spec h hunused hbak) (fun _ _ h' => h') (fun _ h' => h')
    fun journal w₁ ⟨hjournal, h₁⟩ => ?_
  subst hjournal
  -- until the authority is asked, giving up restores the pair, which is clean
  refine wp_bind (wp_orDrop (wp_mono (readQuarantinedLeaf_spec _ leaf)
    (fun _ w₂ hw₂ => ?_) (fun _ w₂ hw₂ => ?_) fun _ h' => h'))
  · subst hw₂
    refine wp_bind (wp_orDrop (wp_mono (markRemotePending_spec h₁) (fun journal w₃ h₃ => ?_)
      (fun _ _ h' => h'.elim) fun _ h' => h'))
    obtain ⟨hjournal, h₃⟩ := h₃
    subst hjournal
    -- from here on giving up leaves everything as it is
    refine wp_bind (wp_orDrop ?_)
    have hcon : wp (do
          let journal ← orDrop ⟨transaction, .remotePending⟩
            (markRemoteConfirmed ⟨transaction, .remotePending⟩)
          orDrop journal (complete journal) : FileProg B T Unit)
        (fun _ w' => Safe w') (fun _ w' => Safe w') Safe w₃ := by
      refine wp_bind (wp_orDrop (wp_mono (markRemoteConfirmed_spec h₃ transaction)
        (fun journal w₄ h₄ => ?_) (fun _ _ h' => h'.elim) fun _ h' => h'))
      obtain ⟨hjournal, h₄⟩ := h₄
      subst hjournal
      refine wp_orDrop ?_
      exact wp_cleanup_last ⟨h₄, rfl⟩ fun w₅ h₅ => h₅.1
    cases conf with
    | false => exact wp_fail ⟨h₃, nofun⟩
    | true => exact wp_pure hcon
  · subst hw₂
    exact ⟨h₁.safe, fun _ => h₁.clean⟩

/-- Installing what has not been revoked. -/
theorem install_spec (h : Safe w) (transaction : T) {chain pkey : B}
    (hcert : .bytes chain ∉ w.revoked) (hkey : .bytes pkey ∉ w.revoked) :
    wp (installCertificateFiles transaction chain pkey) (fun _ w' => Safe w')
      (fun _ w' => Safe w') Safe w := by
  refine wp_call (recoverInterruptedRevocation_spec h) (fun _ _ h' => h') (fun _ h' => h')
    fun _ w₁ h₁ => ?_
  refine wp_call (recoverInterruptedInstall_spec h₁.safe) (fun _ _ h' => h'.1) (fun _ h' => h')
    fun _ w₂ h₂ => ?_
  have hrevoked : w₂.revoked = w.revoked := h₂.2.trans h₁.revoked
  refine wp_bind (wp_attempt (wp_mono (stageInstall_spec h₂.1 transaction (by rwa [hrevoked])
    (by rwa [hrevoked])) (fun _ w₃ h₃ => ?_) (fun e w₃ h₃ => ?_) fun _ h' => h'))
  · refine wp_bind (wp_attempt (wp_mono (publishInstall_spec h₃.1 transaction h₃.2)
      (fun _ _ h₄ => wp_pure h₄) (fun e w₄ h₄ => ?_) fun _ h' => h'))
    exact wp_bind (wp_attempt (wp_mono (recoverInterruptedInstall_spec h₄)
      (fun _ _ h₅ => wp_fail h₅.1) (fun _ _ h₅ => wp_fail h₅.1) fun _ h' => h'))
  · refine wp_bind (wp_attempt ?_)
    refine wp_cleanup_next ⟨h₃, rfl⟩ fun w₄ h₄ => ?_
    exact wp_cleanup_last h₄ fun w₅ h₅ => wp_fail h₅.1

theorem recover_spec (h : Safe w) :
    wp recoverManagedCertificateTransaction (fun _ w' => Safe w') (fun _ w' => Safe w') Safe w :=
  wp_call (recoverInterruptedRevocation_spec h) (fun _ _ h' => h') (fun _ h' => h')
    fun _ _ h₁ => wp_mono (recoverInterruptedInstall_spec h₁.safe) (fun _ _ h' => h'.1)
      (fun _ _ h' => h'.1) fun _ h' => h'

/-- The runs for which the guarantee is given: an install is not handed revoked bytes, and a
revocation, whose transaction id is unused, does not begin while an interrupted install asks for a
backup to be restored. -/
def Job.Allowed (w : World B T) : Job B T → Prop
  | .install _ fullchain privateKey =>
    .bytes fullchain ∉ w.revoked ∧ .bytes privateKey ∉ w.revoked
  | .recover => True
  | .revoke transaction _ _ =>
    w.read (.quarantined .certificate transaction) = none ∧
      w.read (.quarantined .privateKey transaction) = none ∧ backupWanted w = false

instance (w : World B T) : ∀ job, Decidable (Job.Allowed w job)
  | .install _ _ _ => inferInstanceAs (Decidable (_ ∧ _))
  | .recover => .isTrue trivial
  | .revoke _ _ _ => inferInstanceAs (Decidable (_ ∧ _ ∧ _))

/-- One run, wherever it is cut off. -/
theorem safe_run (h : Safe w) (run : JobRun B T) (hallow : run.job.Allowed w) :
    Safe (w.run run) := by
  obtain ⟨job, budget⟩ := run
  cases job with
  | install transaction chain privateKey =>
    exact wp_state (install_spec h transaction hallow.1 hallow.2) budget
  | recover => exact wp_state (recover_spec h) budget
  | revoke transaction leaf conf =>
    obtain ⟨hcert, hkey, hbak⟩ := hallow
    have hunused : ∀ slot, w.read (.quarantined slot transaction) = none := by
      intro slot
      cases slot with
      | certificate => exact hcert
      | privateKey => exact hkey
    exact wp_state (revoke_spec h hunused (noBackupWanted_of_eq_false hbak) leaf conf)
      budget

/-- **What has been revoked is never active again.**  In every state that such runs reach, each
cut off anywhere, the active files hold nothing that a revocation had in quarantine when it reached
the remote-pending phase. -/
theorem revoked_never_active (runs : List (JobRun B T))
    (hruns : Along World.run (fun w run => run.job.Allowed w) World.init runs) (slot : Slot)
    (c : Contents B T)
    (hactive : (runs.foldl World.run World.init).read (.active slot) = some c) :
    c ∉ (runs.foldl World.run World.init).revoked :=
  (hruns.invariant (P := Safe) (fun _ run hw hallow => safe_run hw run hallow)
    safe_init).active slot c hactive

/-- A certificate is revoked and replaced. -/
def replacement : List (JobRun ℕ ℕ) :=
  [⟨.install 1 10 11, 100⟩, ⟨.revoke 2 true true, 100⟩, ⟨.install 3 20 21, 100⟩]

theorem revoked_never_active_replacement :
    (replacement.foldl World.run World.init).read (.active .certificate) = some (.bytes 20) ∧
      Contents.bytes 10 ∈ (replacement.foldl World.run World.init).revoked ∧
      Contents.bytes 20 ∉ (replacement.foldl World.run World.init).revoked :=
  ⟨by decide +kernel, by decide +kernel,
    revoked_never_active replacement (by decide +kernel) .certificate (.bytes 20)
      (by decide +kernel)⟩

/-- An install is cut off when its journal asks for the old pair to be restored; the old pair is
revoked, confirmed by the authority; and the next recovery makes it active again. -/
theorem revoked_restored :
    let runs : List (JobRun ℕ ℕ) :=
      [⟨.install 1 10 11, 100⟩, ⟨.install 2 20 21, 14⟩, ⟨.revoke 3 true true, 100⟩, ⟨.recover, 100⟩]
    let after := runs.foldl World.run World.init
    after.read (.active .certificate) = some (.bytes 10) ∧
      after.read (.active .privateKey) = some (.bytes 11) ∧
      after.revoked = [.bytes 10, .bytes 11] := by
  decide +kernel

end Fluxheim.Acme
