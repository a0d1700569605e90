import Fluxheim.Acme.FileEffects

/-!
# What keeps revoked bytes from being active

Once a revocation has reached the remote-pending phase, the bytes it had in quarantine must not come
back to the active paths.
-/

namespace Fluxheim.Acme

open Crash Crash.Prog

variable {B T : Type}

/-! ### The invariant -/

/-- The name reads nothing that has been revoked. -/
def Clean (w : World B T) (n : FileName T) : Prop :=
  ∀ c, w.read n = some c → c ∉ w.revoked

/-- No revoked bytes are active, nor where a journal on disk would have them made active. -/
structure Safe (w : World B T) : Prop where
  active : ∀ slot, Clean w (.active slot)
  /-- What the recovery from an install would restore. -/
  backup : ∀ journal, w.read .installJournal = some (.install journal) →
    journal.phase = .publishing → ∀ slot, journal.existed slot = true → Clean w (.backup slot)
  /-- What the recovery from a revocation would restore. -/
  quarantine : ∀ journal, w.read .revocationJournal = some (.revocation journal) →
    journal.phase.preRemote = true → ∀ slot, Clean w (.quarantined slot journal.transaction)

/-- The names that no recovery makes active. -/
def FileName.scratch : FileName T → Bool
  | .temporary _ _ => true
  | .installJournalTemporary _ => true
  | .revocationJournalTemporary _ => true
  | _ => false

/-- One name may read something new; the others read what they did, or nothing. -/
structure Effect (w w' : World B T) (target : FileName T) : Prop where
  others : ∀ m, m ≠ target → w'.read m = w.read m ∨ w'.read m = none
  revoked : w'.revoked = w.revoked

/-- The names other than the two given read what they did, and nothing is revoked. -/
def Keeps (n m : FileName T) (w w' : World B T) : Prop :=
  (∀ k, k ≠ n → k ≠ m → w'.read k = w.read k) ∧ w'.revoked = w.revoked

/-- Safe still, with the same record. -/
def Stays (w w' : World B T) : Prop :=
  Safe w' ∧ w'.revoked = w.revoked

section Effects

variable {w w' : World B T} {n m : FileName T}

theorem Sets.effect {v : Option (Contents B T)} (h : Sets w w' n v) : Effect w w' n :=
  ⟨fun m hm => Or.inl (h.frame m hm), h.revoked⟩

theorem Clean.of_none (h : w.read n = none) : Clean w n := by
  intro c hc
  rw [h] at hc
  cases hc

theorem Clean.of_eq (h : Clean w m) (hread : w'.read n = w.read m)
    (hrevoked : w'.revoked = w.revoked) : Clean w' n := by
  intro c hc
  rw [hrevoked]
  exact h c (hread ▸ hc)

theorem Clean.effect (h : Clean w m) (heff : Effect w w' n) (hne : m ≠ n) : Clean w' m := by
  rcases heff.others m hne with hsame | hnone
  · exact h.of_eq hsame heff.revoked
  · exact of_none hnone

theorem Clean.keeps {k : FileName T} (h : Clean w k) (hkeep : Keeps n m w w')
    (hn : k ≠ n) (hm : k ≠ m) : Clean w' k :=
  h.of_eq (hkeep.1 k hn hm) hkeep.2

/-- A journal that an operation leaves on disk was there before. -/
theorem Effect.read_some (h : Effect w w' n) (hne : m ≠ n) {c : Contents B T}
    (hread : w'.read m = some c) : w.read m = some c := by
  rcases h.others m hne with hsame | hnone
  · rw [← hsame, hread]
  · rw [hnone] at hread
    cases hread

/-- **Operations outside the journals.**  A name that could be made active must be clean
afterwards; a journal may only be removed. -/
theorem Safe.effect (h : Safe w) (heff : Effect w w' n) (hn : n.scratch = true ∨ Clean w' n)
    (hins : n = .installJournal → w'.read n = none)
    (hrev : n = .revocationJournal → w'.read n = none) : Safe w' := by
  -- a name that is not scratch stays clean, the changed one included
  have hclean : ∀ m, m.scratch = false → Clean w m → Clean w' m := by
    intro m hm hw
    by_cases hmn : m = n
    · subst hmn
      rcases hn with hscript | hclean
      · rw [hm] at hscript
        cases hscript
      · exact hclean
    · exact hw.effect heff hmn
  refine ⟨fun slot => hclean _ rfl (h.active slot), ?_, ?_⟩
  · intro journal hread hphase slot hexist
    have hne : FileName.installJournal ≠ n := fun heq => by
      subst heq
      rw [hins rfl] at hread
      cases hread
    exact hclean _ rfl (h.backup journal (heff.read_some hne hread) hphase slot hexist)
  · intro journal hread hphase slot
    have hne : FileName.revocationJournal ≠ n := fun heq => by
      subst heq
      rw [hrev rfl] at hread
      cases hread
    exact hclean _ rfl (h.quarantine journal (heff.read_some hne hread) hphase slot)

/-- Removing a file. -/
theorem Safe.cleanup (h : Safe w) (hset : Sets w w' n none) : Safe w' :=
  h.effect hset.effect (Or.inr (Clean.of_none hset.value)) (fun _ => hset.value)
    fun _ => hset.value

/-- Writing a file that nothing makes active. -/
theorem Safe.scratch (h : Safe w) {v : Option (Contents B T)} (hn : n.scratch = true)
    (hset : Sets w w' n v) : Safe w' := by
  refine h.effect hset.effect (Or.inl hn) ?_ ?_ <;>
  · rintro rfl
    cases hn

/-- A new install journal: what it asks to have restored must be clean. -/
theorem Safe.installJournal (h : Safe w) (heff : Effect w w' .installJournal)
    {journal : CertificateInstallJournal T}
    (hread : w'.read .installJournal = some (.install journal))
    (hbak : journal.phase = .publishing → ∀ slot, journal.existed slot = true →
      Clean w (.backup slot)) : Safe w' := by
  refine ⟨fun slot => (h.active slot).effect heff nofun, ?_, ?_⟩
  · intro journal' hread' hphase slot hexist
    rw [hread] at hread'
    cases hread'
    exact (hbak hphase slot hexist).effect heff nofun
  · intro journal' hread' hphase slot
    have hpre := heff.read_some (m := .revocationJournal) nofun hread'
    exact (h.quarantine journal' hpre hphase slot).effect heff nofun

/-- A new revocation journal, likewise. -/
theorem Safe.revocationJournal (h : Safe w) (heff : Effect w w' .revocationJournal)
    {journal : RevocationJournal T}
    (hread : w'.read .revocationJournal = some (.revocation journal))
    (hquarantine : journal.phase.preRemote = true → ∀ slot,
      Clean w (.quarantined slot journal.transaction)) : Safe w' := by
  refine ⟨fun slot => (h.active slot).effect heff nofun, ?_, ?_⟩
  · intro journal' hread' hphase slot hexist
    have hpre := heff.read_some (m := .installJournal) nofun hread'
    exact (h.backup journal' hpre hphase slot hexist).effect heff nofun
  · intro journal' hread' hphase slot
    rw [hread] at hread'
    cases hread'
    exact (hquarantine hphase slot).effect heff nofun

/-- No interrupted install asks for a backup to be restored. -/
def NoBackupWanted (w : World B T) : Prop :=
  ∀ journal, w.read .installJournal = some (.install journal) → journal.phase = .publishing →
    ∀ slot, journal.existed slot = false

theorem NoBackupWanted.of_eq (h : NoBackupWanted w)
    (hread : w'.read .installJournal = w.read .installJournal) : NoBackupWanted w' :=
  fun journal hjournal => h journal (hread ▸ hjournal)

/-- **The step into the remote-pending phase**, by which the record grows: nothing is active then,
and nothing would be restored. -/
theorem Safe.remotePending (hact : ∀ slot, w.read (.active slot) = none)
    (hbak : NoBackupWanted w) {transaction : T}
    (hread : w.read .revocationJournal = some (.revocation ⟨transaction, .remotePending⟩)) :
    Safe w := by
  refine ⟨fun slot => Clean.of_none (hact slot), ?_, ?_⟩
  · intro journal hjournal hphase slot hexist
    rw [hbak journal hjournal hphase slot] at hexist
    cases hexist
  · intro journal hjournal hphase slot
    rw [hread] at hjournal
    cases hjournal
    cases hphase

/-- What a restored quarantine leaves: the active files may be there again, nothing else is new. -/
structure Reverted (w w' : World B T) : Prop where
  safe : Safe w'
  others : ∀ m, (∀ slot, m ≠ .active slot) → w'.read m = w.read m ∨ w'.read m = none
  journal : w'.read .installJournal = w.read .installJournal
  revoked : w'.revoked = w.revoked

theorem Reverted.refl (h : Safe w) : Reverted w w :=
  ⟨h, fun _ _ => Or.inl rfl, rfl, rfl⟩

theorem Reverted.trans {w₁ w₂ : World B T} (h : Reverted w w₁) (h' : Reverted w₁ w₂) :
    Reverted w w₂ := by
  refine ⟨h'.safe, fun m hm => ?_, h'.journal.trans h.journal, h'.revoked.trans h.revoked⟩
  rcases h'.others m hm with hsame | hnone
  · rw [hsame]
    exact h.others m hm
  · exact Or.inr hnone

theorem Reverted.clean (h : Reverted w w')
    (hn : ∀ slot, n ≠ .active slot) (hclean : Clean w n) : Clean w' n := by
  rcases h.others n hn with hsame | hnone
  · exact hclean.of_eq hsame h.revoked
  · exact Clean.of_none hnone

/-- An interrupted install asks for a backup to be restored. -/
def backupWanted (w : World B T) : Bool :=
  match w.read .installJournal with
  | some (.install journal) =>
    journal.phase = .publishing && (journal.certExisted || journal.keyExisted)
  | _ => false

theorem noBackupWanted_of_eq_false (h : backupWanted w = false) : NoBackupWanted w := by
  intro journal hread hphase slot
  simp only [backupWanted, hread, hphase, decide_true, Bool.true_and, Bool.or_eq_false_iff] at h
  cases slot with
  | certificate => exact h.1
  | privateKey => exact h.2

theorem safe_init : Safe (World.init : World B T) :=
  ⟨fun _ => Clean.of_none rfl, nofun, nofun⟩

end Effects

variable [DecidableEq B] [DecidableEq T]

section Moves

variable {w w' : World B T} {source target : FileName T}

theorem Moves.effect_of_revoked (h : Moves w w' source target) (hrevoked : w'.revoked = w.revoked) :
    Effect w w' target := by
  refine ⟨fun m hm => ?_, hrevoked⟩
  by_cases hms : m = source
  · subst hms
    rcases h.gone with hgone | hsame
    · exact Or.inr hgone
    · exact Or.inl hsame.1
  · exact Or.inl (h.frame m hms hm)

theorem Moves.effect (h : Moves w w' source target) (hs : source ≠ .revocationJournal)
    (ht : target ≠ .revocationJournal) : Effect w w' target :=
  h.effect_of_revoked (h.revoked_eq hs ht)

/-- A move to an unused name takes the file away from its old one. -/
theorem Moves.source_eq_none (h : Moves w w' source target) (hunused : w.read target = none) :
    w'.read source = none := by
  rcases h.gone with hgone | ⟨-, hsame⟩
  · exact hgone
  · exact absurd (hsame.symm.trans hunused) h.source_ne

/-- Moving a clean file. -/
theorem Safe.move (h : Safe w) (hmove : Moves w w' source target) (hclean : Clean w source)
    (hs : source ≠ .revocationJournal) (ht : target ≠ .revocationJournal)
    (ht' : target ≠ .installJournal) : Safe w' :=
  h.effect (hmove.effect hs ht)
    (Or.inr (hclean.of_eq hmove.value (hmove.revoked_eq hs ht)))
    (fun heq => absurd heq ht') fun heq => absurd heq ht

end Moves

end Fluxheim.Acme
