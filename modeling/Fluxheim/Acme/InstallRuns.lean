import Fluxheim.Acme.InstallRecovery

/-!
# The crash points of an install

An install that is cut off somewhere, and one recovery that is not: the states that an install
passes through, how many there are of each, and from which of them it is recovered.
-/

namespace Fluxheim.Acme

open Crash Crash.Prog Directory List

variable {B T : Type}

/-- No run is under way, and none has left a backup. -/
structure Prior (w : World B T) : Prop where
  installJournal : w.read .installJournal = none
  revocationJournal : w.read .revocationJournal = none
  backup : ∀ slot, w.read (.backup slot) = none

/-- How many active files there are. -/
def World.existing (w : World B T) : ℕ :=
  (w.exists .certificate).toNat + (w.exists .privateKey).toNat

variable (transaction : T)

/-- The temporary names are unused. -/
def Unused (w : World B T) : Prop :=
  ∀ slot, w.read (.temporary slot transaction) = none

theorem Slot.forall_iff {p : Slot → Prop} : (∀ slot, p slot) ↔ p .certificate ∧ p .privateKey :=
  ⟨fun h => ⟨h _, h _⟩, fun h slot => by
    cases slot with
    | certificate => exact h.1
    | privateKey => exact h.2⟩

/-- The two files to install. -/
def pairOf (fullchain privateKey : B) : Slot → B
  | .certificate => fullchain
  | .privateKey => privateKey

/-- Until the publishing journal: the active files are as they were, and if there is a journal it
says so. -/
def Unpublished (w v : World B T) : Prop :=
  Within (pendingNames transaction) w.dir v.dir ∨
    Within (transactionNames transaction) w.dir v.dir ∧
      v.read .installJournal = some (.install ⟨transaction, false, false, .prepared⟩)

/-- Under the publishing journal: the old files are all backed up, and some of the new ones are
active. -/
structure Publishing (transaction : T) (w v : World B T) (new : Slot → B) (replaced : List Slot) :
    Prop where
  within : Within (touchedNames transaction) w.dir v.dir
  journal : v.read .installJournal = some (.install
    ⟨transaction, w.exists .certificate, w.exists .privateKey, .publishing⟩)
  backup : ∀ slot, v.dir.links (.backup slot) = w.dir.links (.active slot)
  old : ∀ slot, slot ∉ replaced → v.dir.links (.active slot) = w.dir.links (.active slot)
  new : ∀ slot ∈ replaced, NewFile w.dir v.dir (.active slot) (.bytes (new slot))

/-- From the published journal on: both new files are active. -/
structure Published (transaction : T) (w v : World B T) (new : Slot → B) : Prop where
  within : Within (touchedNames transaction) w.dir v.dir
  journal : v.read .installJournal = some (.install
    ⟨transaction, w.exists .certificate, w.exists .privateKey, .published⟩)
  new : ∀ slot, NewFile w.dir v.dir (.active slot) (.bytes (new slot))

/-- After the install: the new files are active, and nothing is left of the run. -/
structure Installed (transaction : T) (w v : World B T) (new : Slot → B) : Prop where
  within : Within (touchedNames transaction) w.dir v.dir
  journal : v.dir.links .installJournal = none
  backup : ∀ slot, v.dir.links (.backup slot) = none
  new : ∀ slot, NewFile w.dir v.dir (.active slot) (.bytes (new slot))

/-- The new files under their temporary names. -/
def Staged (w v : World B T) (new : Slot → B) : Prop :=
  ∀ slot, NewFile w.dir v.dir (.temporary slot transaction) (.bytes (new slot))

section States

variable {transaction} {w v v' : World B T} {new : Slot → B} {replaced : List Slot}
  {names : List (FileName T)}

theorem Staged.within (h : Staged transaction w v new) (hin : Within names v.dir v'.dir)
    (hnames : ∀ slot, .temporary slot transaction ∉ names) : Staged transaction w v' new :=
  fun slot => (h slot).of_grown hin.grown (hin.links _ (hnames slot))

theorem Prior.of_within (hprior : Prior w) (hin : Within (touchedNames transaction) w.dir v.dir)
    (hjournal : v.dir.links .installJournal = none)
    (hbak : ∀ slot, v.dir.links (.backup slot) = none) : Prior v :=
  ⟨read_eq_none.2 hjournal,
    (hin.read (by simp [touchedNames, transactionNames, pendingNames])).trans
      hprior.revocationJournal,
    fun slot => read_eq_none.2 (hbak slot)⟩

theorem Publishing.writeAside (h : Publishing transaction w v new replaced)
    (hin : Within [.installJournalTemporary transaction] v.dir v'.dir) :
    Publishing transaction w v' new replaced := by
  have hlink := hin.links
  refine ⟨h.within.trans (hin.mono ?_), ?_, fun slot => ?_, fun slot hslot => ?_,
    fun slot hslot => ?_⟩
  · simp [touchedNames, transactionNames, pendingNames]
  · exact (hin.read (by simp)).trans h.journal
  · rw [hlink _ (by simp), h.backup]
  · rw [hlink _ (by simp), h.old slot hslot]
  · exact (h.new slot hslot).of_grown hin.grown (hlink _ (by simp))

/-- A new file takes the place of an old one. -/
theorem Publishing.replace (h : Publishing transaction w v new replaced) {slot : Slot}
    (hnew : NewFile w.dir v.dir (.temporary slot transaction) (.bytes (new slot)))
    (hin : Within [.temporary slot transaction, .active slot] v.dir v'.dir)
    (hact : v'.dir.links (.active slot) = v.dir.links (.temporary slot transaction)) :
    Publishing transaction w v' new (slot :: replaced) := by
  have hlink := hin.links
  refine ⟨h.within.trans (hin.mono ?_), ?_, fun slot' => ?_, fun slot' hslot => ?_,
    fun slot' hslot => ?_⟩
  · cases slot <;> simp [touchedNames, transactionNames, pendingNames]
  · exact (hin.read (by simp)).trans h.journal
  · rw [hlink _ (by simp), h.backup]
  · have hne := not_or.1 (mt mem_cons.2 hslot)
    rw [hlink _ (by simpa using hne.1), h.old slot' hne.2]
  · by_cases hsame : slot' = slot
    · subst hsame
      exact hnew.of_grown hin.grown hact
    · have hmem := (mem_cons.1 hslot).resolve_left hsame
      exact (h.new slot' hmem).of_grown hin.grown (hlink _ (by simpa using hsame))

/-- The journal says that both are replaced. -/
theorem Publishing.published (h : Publishing transaction w v new [.privateKey, .certificate])
    (hin : Within [.installJournalTemporary transaction, .installJournal] v.dir v'.dir)
    (hread : v'.read .installJournal = some (.install
      ⟨transaction, w.exists .certificate, w.exists .privateKey, .published⟩)) :
    Published transaction w v' new := by
  refine ⟨h.within.trans (hin.mono ?_), hread, fun slot => ?_⟩
  · simp [touchedNames, transactionNames, pendingNames]
  · have hmem : slot ∈ [Slot.privateKey, .certificate] := by cases slot <;> simp
    exact (h.new slot hmem).of_grown hin.grown (hin.links _ (by simp))

end States

variable [DecidableEq B] [DecidableEq T]

/-! ### The run -/

section Run

variable {transaction} {w v : World B T}

theorem passes_stageInstall (chain privateKey : B) (hunused : Unused transaction w) :
    ∃ v, Passes (stageInstall transaction chain privateKey) w (2 + (2 + 4))
        (fun v => Within (pendingNames transaction) w.dir v.dir) () v ∧
      Within (.installJournal :: pendingNames transaction) w.dir v.dir ∧
      v.read .installJournal = some (.install ⟨transaction, false, false, .prepared⟩) ∧
      Staged transaction w v (pairOf chain privateKey) := by
  obtain ⟨v₁, hcert, hin₁, hnew₁⟩ := passes_writeNewFile
    (read_eq_none.1 (hunused .certificate)) (.bytes chain)
    (P := fun v => Within (pendingNames transaction) w.dir v.dir)
    fun v hv => hv.mono (by simp [pendingNames])
  have hkey : v₁.dir.links (.temporary .privateKey transaction) = none := by
    rw [hin₁.links _ (by simp), read_eq_none.1 (hunused .privateKey)]
  have hpending₁ : Within (pendingNames transaction) w.dir v₁.dir :=
    hin₁.mono (by simp [pendingNames])
  obtain ⟨v₂, hprivate, hin₂, hnew₂⟩ := passes_writeNewFile hkey (.bytes privateKey)
    (P := fun v => Within (pendingNames transaction) w.dir v.dir)
    fun v hv => hpending₁.trans (hv.mono (by simp [pendingNames]))
  have hpending₂ := hpending₁.trans (hin₂.mono (by simp [pendingNames]))
  obtain ⟨v₃, hjournal, hin₃, hread⟩ := passes_writeJournal
    ⟨transaction, false, false, .prepared⟩ (w := v₂)
    (P := fun v => Within (pendingNames transaction) w.dir v.dir)
    fun v hv => hpending₂.trans (hv.mono (by simp [pendingNames]))
  refine ⟨v₃, hcert.bind (hprivate.bind hjournal), ?_, hread, fun slot => ?_⟩
  · exact (hpending₂.mono (by simp)).trans (hin₃.mono (by simp [pendingNames]))
  · cases slot with
    | certificate =>
      have hkept := hnew₁.of_grown hin₂.grown (hin₂.links _ (by simp))
      exact hkept.of_grown hin₃.grown (hin₃.links _ (by simp))
    | privateKey =>
      have hkept := hnew₂.of_grown hin₃.grown (hin₃.links _ (by simp))
      exact hkept.mono hin₁.grown

variable {new : Slot → B}

/-- From the prepared journal to the publishing one. -/
theorem passes_backup_journal (hprior : Prior w)
    (hin : Within (.installJournal :: pendingNames transaction) w.dir v.dir)
    (hread : v.read .installJournal = some (.install ⟨transaction, false, false, .prepared⟩))
    (hstage : Staged transaction w v new) :
    ∃ v₁ v₂ v₃,
      Passes (backupExistingFile .certificate) v (w.exists .certificate).toNat
        (Unpublished transaction w) (w.exists .certificate) v₁ ∧
      Passes (backupExistingFile .privateKey) v₁ (w.exists .privateKey).toNat
        (Unpublished transaction w) (w.exists .privateKey) v₂ ∧
      Passes (writeJournal ⟨transaction, w.exists .certificate, w.exists .privateKey, .publishing⟩)
        v₂ 4 (Unpublished transaction w) () v₃ ∧
      Publishing transaction w v₃ new [] ∧ Staged transaction w v₃ new := by
  have hnames : ∀ u, Within (transactionNames transaction) w.dir u.dir →
      u.read .installJournal = v.read .installJournal → Unpublished transaction w u :=
    fun u hu hsame => Or.inr ⟨hu, hsame.trans hread⟩
  have hunpublished : Within (transactionNames transaction) w.dir v.dir :=
    hin.mono (by simp [transactionNames, pendingNames])
  have hact : ∀ slot, v.dir.links (.active slot) = w.dir.links (.active slot) :=
    fun slot => hin.links _ (by simp [pendingNames])
  have hex : ∀ {u : World B T} {slot : Slot},
      u.dir.links (.active slot) = w.dir.links (.active slot) → u.exists slot = w.exists slot := by
    intro u slot hlink
    rw [World.exists_eq_isSome, World.exists_eq_isSome, hlink]
  have hempty : ∀ slot, v.dir.links (.backup slot) = none := fun slot => by
    rw [hin.links _ (by simp [pendingNames]), read_eq_none.1 (hprior.backup slot)]
  obtain ⟨v₁, hcert, hin₁, hbak₁⟩ := passes_backupExistingFile .certificate
    (hempty .certificate) (hnames v hunpublished rfl)
  have hunpublished₁ := hunpublished.trans (hin₁.mono (by simp [transactionNames]))
  have hread₁ : v₁.read .installJournal = v.read .installJournal := hin₁.read (by simp)
  obtain ⟨v₂, hkey, hin₂, hbak₂⟩ := passes_backupExistingFile .privateKey (w := v₁)
    ((hin₁.links _ (by simp)).trans (hempty .privateKey)) (hnames v₁ hunpublished₁ hread₁)
  have hunpublished₂ := hunpublished₁.trans (hin₂.mono (by simp [transactionNames]))
  have hread₂ : v₂.read .installJournal = v.read .installJournal :=
    (hin₂.read (by simp)).trans hread₁
  obtain ⟨v₃, hjournal, hin₃, hread₃⟩ := passes_writeJournal (w := v₂)
    ⟨transaction, w.exists .certificate, w.exists .privateKey, .publishing⟩
    fun u hu => hnames u
      (hunpublished₂.trans (hu.mono (by simp [transactionNames, pendingNames])))
      ((hu.read (by simp)).trans hread₂)
  have hact₁ : v₁.dir.links (.active .privateKey) = w.dir.links (.active .privateKey) :=
    (hin₁.links _ (by simp)).trans (hact .privateKey)
  rw [hex (hact .certificate)] at hcert
  rw [hex hact₁] at hkey
  refine ⟨v₁, v₂, v₃, hcert, hkey, hjournal, ⟨?_, hread₃, fun slot => ?_, fun slot _ => ?_,
    fun slot hslot => absurd hslot not_mem_nil⟩, ?_⟩
  · refine (hunpublished₂.mono ?_).trans (hin₃.mono ?_) <;>
    · simp [touchedNames, transactionNames, pendingNames]
  · rw [hin₃.links _ (by simp)]
    cases slot with
    | certificate => rw [hin₂.links _ (by simp), hbak₁, hact]
    | privateKey => rw [hbak₂, hact₁]
  · rw [hin₃.links _ (by simp), hin₂.links _ (by simp), hin₁.links _ (by simp), hact]
  · exact ((hstage.within hin₁ (by simp)).within hin₂ (by simp)).within hin₃ (by simp)

/-- One new file is renamed onto the active name. -/
theorem Publishing.passes_replace {replaced : List Slot}
    (h : Publishing transaction w v new replaced) {slot : Slot} (hslot : slot ∉ replaced)
    (hnew : NewFile w.dir v.dir (.temporary slot transaction) (.bytes (new slot))) :
    ∃ v', Passes (renameCertificateFile (.temporary slot transaction) (.active slot)) v 1
        (Publishing transaction w · new replaced) () v' ∧
      Publishing transaction w v' new (slot :: replaced) ∧
      Within [.temporary slot transaction, .active slot] v.dir v'.dir := by
  have hother : v.dir.links (.active slot) ≠ v.dir.links (.temporary slot transaction) := by
    rw [h.old slot hslot]
    exact (hnew.links_ne _).symm
  obtain ⟨v', hrename, hin, hact, -⟩ := passes_rename_move (.temporary slot transaction)
    (.active slot) hnew.links_ne_none hother (P := (Publishing transaction w · new replaced)) h
  exact ⟨v', hrename, h.replace hnew hin hact, hin⟩

theorem Published.cleanup (h : Published transaction w v new) (slot : Slot) :
    Published transaction w (v.after (v.dir.unlink (.backup slot))) new := by
  have hin := within_unlink v.dir (.backup slot)
  refine ⟨h.within.trans (hin.mono ?_), ?_, fun slot' => ?_⟩
  · cases slot <;> simp [touchedNames, transactionNames, pendingNames]
  · exact (hin.read (by simp)).trans h.journal
  · exact (h.new slot').of_grown hin.grown (hin.links _ (by simp))

/-- From the published journal on. -/
theorem Published.passes_cleanup (h : Published transaction w v new) :
    ∃ v', Passes (do
        cleanupBackup (.backup .certificate)
        cleanupBackup (.backup .privateKey)
        cleanupBackup .installJournal) v (1 + (1 + 1)) (Published transaction w · new) () v' ∧
      Installed transaction w v' new := by
  have hcert := h.cleanup .certificate
  have hkey := hcert.cleanup .privateKey
  have hcleared := (((Cleared.nil v).cleanup (.backup .certificate)).cleanup
    (.backup .privateKey)).cleanup .installJournal
  refine ⟨_, (passes_cleanupBackup _ h).bind ((passes_cleanupBackup _ hcert).bind
    (passes_cleanupBackup _ hkey)), h.within.trans (hcleared.within.mono ?_),
    hcleared.gone _ (by simp), fun slot => hcleared.gone _ ?_, fun slot => ?_⟩
  · simp [touchedNames, transactionNames, pendingNames]
  · cases slot <;> simp
  · exact (h.new slot).of_grown hcleared.within.grown (hcleared.within.links _ (by simp))

/-- **The states that an install passes through**, once its journal is on disk. -/
theorem runs_publishInstall (hprior : Prior w)
    (hin : Within (.installJournal :: pendingNames transaction) w.dir v.dir)
    (hread : v.read .installJournal = some (.install ⟨transaction, false, false, .prepared⟩))
    (hstage : Staged transaction w v new) :
    ∃ before linked half after v',
      Runs (publishInstall transaction) v (before ++ linked :: half :: after) (.ok ()) v' ∧
      before.length = (w.exists .certificate).toNat + ((w.exists .privateKey).toNat + 4) ∧
      (∀ u ∈ before, Unpublished transaction w u) ∧
      Publishing transaction w linked new [] ∧
      Publishing transaction w half new [.certificate] ∧
      (∀ u ∈ after, Publishing transaction w u new [.privateKey, .certificate] ∨
        Published transaction w u new) ∧
      Installed transaction w v' new := by
  obtain ⟨v₁, v₂, v₃, ⟨visited₁, hruns₁, hlen₁, hall₁⟩, ⟨visited₂, hruns₂, hlen₂, hall₂⟩,
    ⟨visited₃, hruns₃, hlen₃, hall₃⟩, hlink, hstage₃⟩ :=
    passes_backup_journal hprior hin hread hstage
  obtain ⟨v₄, ⟨visited₄, hruns₄, hlen₄, hall₄⟩, hhalf, hin₄⟩ :=
    hlink.passes_replace not_mem_nil (hstage₃ .certificate)
  obtain ⟨v₅, ⟨visited₅, hruns₅, hlen₅, hall₅⟩, hrep, -⟩ :=
    hhalf.passes_replace (by simp)
      ((hstage₃ .privateKey).of_grown hin₄.grown (hin₄.links _ (by simp)))
  obtain ⟨v₆, ⟨visited₆, hruns₆, -, hall₆⟩, hin₆, hread₆⟩ := passes_writeJournal (w := v₅)
    ⟨transaction, w.exists .certificate, w.exists .privateKey, .published⟩
    fun u hu => hrep.writeAside hu
  obtain ⟨v₇, ⟨visited₇, hruns₇, -, hall₇⟩, hinst⟩ :=
    (hrep.published hin₆ hread₆).passes_cleanup
  obtain ⟨linked, rfl⟩ := length_eq_one_iff.1 hlen₄
  obtain ⟨half, rfl⟩ := length_eq_one_iff.1 hlen₅
  refine ⟨visited₁ ++ (visited₂ ++ visited₃), linked, half, visited₆ ++ visited₇, v₇, ?_, ?_, ?_,
    hall₄ linked (mem_singleton_self _), hall₅ half (mem_singleton_self _), ?_,
    hinst⟩
  · have hruns : Runs (publishInstall transaction) v
        (visited₁ ++ (visited₂ ++ (visited₃ ++ ([linked] ++ ([half] ++ (visited₆ ++ visited₇))))))
        (.ok ()) v₇ :=
      hruns₁.bind (hruns₂.bind (hruns₃.bind (hruns₄.bind (hruns₅.bind (hruns₆.bind hruns₇)))))
    simpa only [append_assoc, cons_append, nil_append] using hruns
  · rw [length_append, length_append, hlen₁, hlen₂, hlen₃]
  · exact forall_mem_append.2 ⟨hall₁, forall_mem_append.2 ⟨hall₂, hall₃⟩⟩
  · exact forall_mem_append.2
      ⟨fun u hu => Or.inl (hall₆ u hu), fun u hu => Or.inr (hall₇ u hu)⟩

theorem runs_writeNewFile_exists {n : FileName T} (hlink : w.dir.links n ≠ none)
    (c : Contents B T) : Runs (writeNewFile n c) w [w] (.error (.io n .alreadyExists)) w := by
  have hcreate : w.dir.create n .torn = .error .alreadyExists := if_neg hlink
  refine Runs.bind_error (runs_op_error ?_)
  simp only [hcreate]

/-- A temporary name that is in use keeps the install from getting started. -/
theorem runs_stageInstall_used (chain privateKey : B) (hused : ¬ Unused transaction w) :
    ∃ visited e v, Runs (stageInstall transaction chain privateKey) w visited (.error e) v ∧
      (∀ u ∈ visited, Within (pendingNames transaction) w.dir u.dir) ∧
      Within (pendingNames transaction) w.dir v.dir := by
  by_cases hcert : w.dir.links (.temporary .certificate transaction) = none
  · have hkey : w.dir.links (.temporary .privateKey transaction) ≠ none := by
      intro hkey
      refine hused fun slot => read_eq_none.2 ?_
      cases slot with
      | certificate => exact hcert
      | privateKey => exact hkey
    obtain ⟨v, ⟨visited, hruns, -, hall⟩, hin, -⟩ := passes_writeNewFile hcert
      (.bytes chain) (P := fun v => Within (pendingNames transaction) w.dir v.dir)
      fun v hv => hv.mono (by simp [pendingNames])
    have hpending : Within (pendingNames transaction) w.dir v.dir :=
      hin.mono (by simp [pendingNames])
    have hkey' : v.dir.links (.temporary .privateKey transaction) ≠ none := by
      rwa [hin.links _ (by simp)]
    refine ⟨visited ++ [v], _, v,
      hruns.bind (Runs.bind_error (runs_writeNewFile_exists hkey' (.bytes privateKey))), ?_,
      hpending⟩
    intro u hu
    rcases mem_append.1 hu with hu | hu
    · exact hall u hu
    · rwa [mem_singleton.1 hu]
  · refine ⟨[w], _, w, Runs.bind_error (runs_writeNewFile_exists hcert (.bytes chain)), ?_,
      Within.refl _⟩
    intro u hu
    rw [mem_singleton.1 hu]
    exact Within.refl _

variable [ToString T]

theorem runs_recoverInterruptedRevocation_none (hread : w.read .revocationJournal = none) :
    Runs recoverInterruptedRevocation w [] (.ok ()) w := by
  have hjournal : Runs readRevocationJournal w [] (.ok none) w :=
    (runs_read hread).bind (runs_pure none)
  exact hjournal.bind (runs_pure ())

/-- **An install from the start**, and where the files are under two names. -/
theorem runs_installCertificateFiles (chain pkey : B) (hprior : Prior w)
    (hunused : Unused transaction w) :
    ∃ before linked half after v',
      Runs (installCertificateFiles transaction chain pkey) w
        (before ++ linked :: half :: after) (.ok ()) v' ∧
      before.length = 12 + w.existing ∧
      (∀ u ∈ before, Unpublished transaction w u) ∧
      Publishing transaction w linked (pairOf chain pkey) [] ∧
      Publishing transaction w half (pairOf chain pkey) [.certificate] ∧
      (∀ u ∈ after,
        Publishing transaction w u (pairOf chain pkey) [.privateKey, .certificate] ∨
          Published transaction w u (pairOf chain pkey)) ∧
      Installed transaction w v' (pairOf chain pkey) := by
  obtain ⟨v, ⟨staged, hruns, hlen, hall⟩, hin, hread, hstage⟩ :=
    passes_stageInstall chain pkey hunused
  obtain ⟨before, linked, half, after, v', hruns', hlen', hpre, hlink, hhalf, hafter,
    hinst⟩ := runs_publishInstall hprior hin hread hstage
  have hrec₁ := runs_recoverInterruptedRevocation_none hprior.revocationJournal
  have hrec₂ := runs_recoverInterruptedInstall_none hprior.installJournal
  refine ⟨staged ++ before, linked, half, after, v', ?_, ?_, ?_, hlink, hhalf, hafter,
    hinst⟩
  · have hall : Runs (installCertificateFiles transaction chain pkey) w
        ([] ++ ([] ++ (staged ++ ((before ++ linked :: half :: after) ++ [])))) (.ok ()) v' :=
      hrec₁.bind (hrec₂.bind (hruns.attempt.bind (hruns'.attempt.bind (runs_pure ()))))
    simpa only [nil_append, append_nil, append_assoc] using hall
  · rw [length_append, World.existing]
    omega
  · exact forall_mem_append.2 ⟨fun u hu => Or.inl (hall u hu), hpre⟩

/-- A temporary name in use: nothing but temporary names changes. -/
theorem runs_installCertificateFiles_used (chain pkey : B) (hprior : Prior w)
    (hused : ¬ Unused transaction w) :
    ∃ visited e v', Runs (installCertificateFiles transaction chain pkey) w visited
        (.error e) v' ∧
      (∀ u ∈ visited, Within (pendingNames transaction) w.dir u.dir) ∧
      Within (pendingNames transaction) w.dir v'.dir := by
  obtain ⟨staged, e, v, hruns, hall, hin⟩ :=
    runs_stageInstall_used chain pkey hused
  have hrec₁ := runs_recoverInterruptedRevocation_none hprior.revocationJournal
  have hrec₂ := runs_recoverInterruptedInstall_none hprior.installJournal
  have hcert : Within (pendingNames transaction) w.dir
      (v.dir.unlink (.temporary .certificate transaction)) :=
    hin.trans ((within_unlink _ _).mono (by simp [pendingNames]))
  obtain ⟨cleaned, hclean, -, hall'⟩ : Passes (do
      cleanupBackup (.temporary .certificate transaction)
      cleanupBackup (.temporary .privateKey transaction)) v (1 + 1)
      (fun u => Within (pendingNames transaction) w.dir u.dir) () _ :=
    (passes_cleanupBackup _ hin).bind (passes_cleanupBackup _ hcert)
  have hruns' : Runs (installCertificateFiles transaction chain pkey) w
      ([] ++ ([] ++ (staged ++ (cleaned ++ [])))) (.error e) _ :=
    hrec₁.bind (hrec₂.bind (hruns.attempt.bind (hclean.attempt.bind (runs_fail e))))
  refine ⟨_, e, _, hruns', ?_, hcert.trans ((within_unlink _ _).mono (by simp [pendingNames]))⟩
  simp only [nil_append, append_nil]
  exact forall_mem_append.2 ⟨hall, hall'⟩

end Run

/-- A recovery from `v` to `w'`, of an install of the pair `new` over `w`: the active files are both
the old or both the new ones, nothing of the install is left, and another one is not blocked. -/
structure RecoveredTo [ToString T] (w w' : World B T) (new : Slot → B) : Prop where
  pair : (∀ slot, w'.read (.active slot) = w.read (.active slot)) ∨
    ∀ slot, w'.read (.active slot) = some (.bytes (new slot))
  installJournal : w'.read .installJournal = none
  backup : ∀ slot, w'.read (.backup slot) = none
  unblocked : ∀ (transaction : T) (fullchain privateKey : B), Unused transaction w' →
    ∃ visited w'',
      Runs (installCertificateFiles transaction fullchain privateKey) w' visited (.ok ()) w''

/-- One recovery that is not cut off succeeds, and does what it should. -/
def Recovered [ToString T] (w v : World B T) (new : Slot → B) : Prop :=
  ∃ visited w', Runs recoverInterruptedInstall v visited (.ok ()) w' ∧ RecoveredTo w w' new

section Recovered

variable [ToString T] {transaction} {w v w' : World B T} {new : Slot → B}

theorem RecoveredTo.of_prior (hprior : Prior w')
    (hpair : (∀ slot, w'.read (.active slot) = w.read (.active slot)) ∨
      ∀ slot, w'.read (.active slot) = some (.bytes (new slot))) : RecoveredTo w w' new := by
  refine ⟨hpair, hprior.installJournal, hprior.backup, fun transaction chain pkey h => ?_⟩
  obtain ⟨before, linked, half, after, w'', hruns, -⟩ :=
    runs_installCertificateFiles chain pkey hprior h
  exact ⟨_, w'', hruns⟩

/-- Before publishing, the old pair stays. -/
theorem Unpublished.recovered (hprior : Prior w) (h : Unpublished transaction w v) :
    Recovered w v new := by
  rcases h with hin | ⟨hin, hread⟩
  · have hsame : ∀ n, n ∉ pendingNames transaction → v.read n = w.read n :=
      fun n hn => hin.read hn
    have hv : Prior v :=
      ⟨(hsame _ (by simp [pendingNames])).trans hprior.installJournal,
        (hsame _ (by simp [pendingNames])).trans hprior.revocationJournal,
        fun slot => (hsame _ (by simp [pendingNames])).trans (hprior.backup slot)⟩
    exact ⟨[], v, runs_recoverInterruptedInstall_none hv.installJournal,
      .of_prior hv (Or.inl fun slot => hsame _ (by simp [pendingNames]))⟩
  · obtain ⟨k, w', ⟨visited, hruns, -⟩, hcleared⟩ :=
      passes_recoverInterruptedInstall_cleanup hread (by simp)
    have hin' : Within (transactionNames transaction) w.dir w'.dir :=
      hin.trans (hcleared.within.mono (by simp [transactionNames, pendingNames]))
    have htouch : Within (touchedNames transaction) w.dir w'.dir :=
      hin'.mono (by simp [touchedNames])
    have hprior' : Prior w' := by
      refine hprior.of_within htouch (hcleared.gone _ (by simp)) fun slot => hcleared.gone _ ?_
      cases slot <;> simp
    refine ⟨visited, w', hruns, .of_prior hprior' (Or.inl fun slot => ?_)⟩
    exact hin'.read (by simp [transactionNames, pendingNames])

/-- While publishing, the old pair is restored; but a backup stays that is a second name of the
active file still. -/
theorem Publishing.recovered_iff {replaced : List Slot} (hprior : Prior w)
    (h : Publishing transaction w v new replaced) :
    Recovered w v new ↔ ∀ slot, w.exists slot = true → slot ∈ replaced := by
  have hexist : ∀ slot, CertificateInstallJournal.existed
      ⟨transaction, w.exists .certificate, w.exists .privateKey, .publishing⟩ slot =
      w.exists slot := fun slot => by cases slot <;> rfl
  obtain ⟨k, w', ⟨visited, hruns, -⟩, hin, hjournal, hslots⟩ :=
    passes_recoverInterruptedInstall_publishing h.journal rfl fun slot hslot => by
      rw [h.backup]
      exact World.exists_eq_true.1 ((hexist slot).symm.trans hslot)
  simp only [hexist, h.backup] at hslots
  have hact : ∀ slot, w'.dir.links (.active slot) = w.dir.links (.active slot) := by
    intro slot
    cases hslot : w.exists slot with
    | true => rw [(hslots slot).1, if_pos hslot]
    | false => rw [(hslots slot).1, if_neg (by rw [hslot]; nofun), World.exists_eq_false.1 hslot]
  have hbak : ∀ slot, w'.dir.links (.backup slot) = none ↔
      (w.exists slot = true → slot ∈ replaced) := by
    intro slot
    rw [(hslots slot).2]
    cases hex : w.exists slot with
    | false =>
      exact ⟨fun _ => nofun, fun _ => World.exists_eq_false.1 hex⟩
    | true =>
      by_cases hslot : slot ∈ replaced
      · rw [if_pos ⟨rfl, (h.new slot hslot).links_ne _⟩]
        exact ⟨fun _ _ => hslot, fun _ => rfl⟩
      · rw [if_neg fun hne => hne.2 (h.old slot hslot)]
        exact ⟨fun hnone => absurd hnone (World.exists_eq_true.1 hex),
          fun hmem => absurd (hmem rfl) hslot⟩
  constructor
  · rintro ⟨visited', w'', hruns', hto⟩ slot
    obtain rfl := (hruns'.unique hruns).2
    exact (hbak slot).1 (read_eq_none.1 (hto.backup slot))
  · intro hrep
    have hprior' : Prior w' := hprior.of_within (h.within.trans hin) hjournal
      fun slot => (hbak slot).2 (hrep slot)
    refine ⟨visited, w', hruns, .of_prior hprior' (Or.inl fun slot => ?_)⟩
    exact (h.within.trans hin).grown.read (hact slot)

/-- After publishing, the new pair stays. -/
theorem Published.recovered (hprior : Prior w) (h : Published transaction w v new) :
    Recovered w v new := by
  obtain ⟨k, w', ⟨visited, hruns, -⟩, hcleared⟩ :=
    passes_recoverInterruptedInstall_cleanup h.journal nofun
  have htouch : Within (touchedNames transaction) w.dir w'.dir :=
    h.within.trans (hcleared.within.mono (by simp [touchedNames, transactionNames, pendingNames]))
  have hprior' : Prior w' := by
    refine hprior.of_within htouch (hcleared.gone _ (by simp)) fun slot => hcleared.gone _ ?_
    cases slot <;> simp
  refine ⟨visited, w', hruns, .of_prior hprior' (Or.inr fun slot => ?_)⟩
  exact ((h.new slot).of_grown hcleared.within.grown (hcleared.within.links _ (by simp))).read

theorem Installed.recovered (hprior : Prior w) (h : Installed transaction w v new) :
    Recovered w v new := by
  have hprior' : Prior v := hprior.of_within h.within h.journal h.backup
  exact ⟨[], v, runs_recoverInterruptedInstall_none hprior'.installJournal,
    .of_prior hprior' (Or.inr fun slot => (h.new slot).read)⟩

end Recovered

/-- The install is cut off between the publishing journal and the renames, at a point at which one
of the files that were there is still active, under the name of its backup as well. -/
def CutOffLinked (transaction : T) (w : World B T) (n : ℕ) : Prop :=
  Unused transaction w ∧
    (n = 12 + w.existing ∧ (w.exists .certificate = true ∨ w.exists .privateKey = true) ∨
      n = 13 + w.existing ∧ w.exists .privateKey = true)

/-- **An install cut off anywhere, and one recovery.**  It succeeds and leaves one of the two pairs,
with no journal and no backup, unless the install was cut off while an old file had two names. -/
theorem install_recovered_iff [ToString T] (w : World B T) (transaction : T)
    (fullchain privateKey : B) (n : ℕ) (hprior : Prior w) :
    Recovered w (installCertificateFiles transaction fullchain privateKey w n).state
        (pairOf fullchain privateKey) ↔
      ¬ CutOffLinked transaction w n := by
  by_cases hunused : Unused transaction w
  · obtain ⟨before, linked, half, after, v', hruns, hlen, hpre, hlink, hhalf, hafter,
      hinst⟩ := runs_installCertificateFiles fullchain privateKey hprior hunused
    rw [hruns.state n]
    have hcut : ∀ m, CutOffLinked transaction w (before.length + m) ↔
        m = 0 ∧ (w.exists .certificate = true ∨ w.exists .privateKey = true) ∨
          m = 1 ∧ w.exists .privateKey = true := fun m => by
      have hzero : 12 + w.existing + m = 12 + w.existing ↔ m = 0 := by omega
      have hone : 12 + w.existing + m = 13 + w.existing ↔ m = 1 := by omega
      rw [CutOffLinked, and_iff_right hunused, hlen, hzero, hone]
    rcases Nat.lt_or_ge n before.length with hlt | hge
    · rw [getElem?_append_left hlt, getElem?_eq_getElem hlt]
      refine iff_of_true ((hpre _ (getElem_mem hlt)).recovered hprior) ?_
      rintro ⟨-, ⟨hn, -⟩ | ⟨hn, -⟩⟩ <;> omega
    · obtain ⟨m, rfl⟩ := Nat.exists_eq_add_of_le hge
      rw [getElem?_append_right hge, Nat.add_sub_cancel_left, hcut]
      -- what comes after the publishing journal, operation by operation
      match m with
      | 0 =>
        rw [getElem?_cons_zero, Option.getD_some, hlink.recovered_iff hprior, Slot.forall_iff]
        simp
      | 1 =>
        rw [getElem?_cons_succ, getElem?_cons_zero, Option.getD_some,
          hhalf.recovered_iff hprior, Slot.forall_iff]
        simp
      | m + 2 =>
        rw [getElem?_cons_succ, getElem?_cons_succ]
        refine iff_of_true ?_ (by omega)
        cases hget : after[m]? with
        | none => exact hinst.recovered hprior
        | some u =>
          rcases hafter u (mem_of_getElem? hget) with hu | hu
          · exact (hu.recovered_iff hprior).2 fun slot _ => by cases slot <;> simp
          · exact hu.recovered hprior
  · obtain ⟨visited, e, v', hruns, hall, hin⟩ :=
      runs_installCertificateFiles_used fullchain privateKey hprior hunused
    refine iff_of_true ?_ fun h => hunused h.1
    rw [hruns.state n]
    cases hget : visited[n]? with
    | none => exact Unpublished.recovered hprior (Or.inl hin)
    | some u => exact Unpublished.recovered hprior (Or.inl (hall u (mem_of_getElem? hget)))

/-- A directory with one pair installed. -/
def onePair : World ℕ ℕ := (installCertificateFiles 1 10 11 World.init 30).state

theorem onePair_prior : Prior onePair :=
  ⟨by decide +kernel, by decide +kernel, fun slot => by cases slot <;> decide +kernel⟩

/-- Cut off when both new files are active, and the journal does not say so yet. -/
theorem install_recovered_replaced :
    Prior onePair ∧ ¬ CutOffLinked 2 onePair 16 ∧
      Recovered onePair (installCertificateFiles 2 20 21 onePair 16).state (pairOf 20 21) := by
  have hcut : ¬ CutOffLinked 2 onePair 16 := by
    have hexi : onePair.existing = 2 := by decide +kernel
    rintro ⟨-, ⟨hn, -⟩ | ⟨hn, -⟩⟩ <;> omega
  exact ⟨onePair_prior, hcut, (install_recovered_iff onePair 2 20 21 16 onePair_prior).2 hcut⟩

/-- **A backup that is left behind.**  The second install is cut off right after its publishing
journal.  Recovery removes the journal, but its renames have no effect; a third install then fails
because there are backups. -/
theorem recovery_leaves_backup :
    Prior onePair ∧
      ¬ Recovered onePair (installCertificateFiles 2 20 21 onePair 14).state (pairOf 20 21) ∧
      ∃ recovered : World ℕ ℕ,
        recovered = (recoverInterruptedInstall
          (installCertificateFiles 2 20 21 onePair 14).state 30).state ∧
        recovered.read .installJournal = none ∧
        recovered.read (.backup .certificate) = some (.bytes 10) ∧
        recovered.read (.backup .privateKey) = some (.bytes 11) ∧
        (installCertificateFiles 3 30 31 recovered 40).result =
          some (.error (.unsafePath (.backup .certificate) "backup path already exists")) := by
  have hres : (recoverInterruptedInstall
      (installCertificateFiles 2 20 21 onePair 14).state 30).result = some (.ok ()) := by
    decide +kernel
  refine ⟨onePair_prior, ?_, _, rfl, ?_, ?_, ?_, ?_⟩
  · rintro ⟨visited, w', hruns, hto⟩
    have hleft : w'.read (.backup .certificate) = some (.bytes 10) := by
      rw [(hruns.eq_of_result hres).2]
      decide +kernel
    rw [hto.backup] at hleft
    cases hleft
  all_goals decide +kernel

end Fluxheim.Acme
