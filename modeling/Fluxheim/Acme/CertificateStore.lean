import Fluxheim.Lib.Crash
import Fluxheim.Lib.Directory

/-!
# The managed certificate directory

Installs, revocations and recoveries of one managed certificate.  Each works on one directory, under
its mutation lock, by file operations that a crash can cut off anywhere; two journals say what a
later run has to make good.  The directory holds regular files only.  `sync_directory` has no place
here: operations are durable in the order they are made.
-/

namespace Fluxheim.Acme

open Crash

/-- The two files of a certificate. -/
inductive Slot where
  | certificate
  | privateKey
  deriving DecidableEq

/-- The file of a slot. -/
def Slot.fileName : Slot → String
  | .certificate => "fullchain.pem"
  | .privateKey => "privkey.pem"

/-- Its name without the extension. -/
def Slot.stem : Slot → String
  | .certificate => "fullchain"
  | .privateKey => "privkey"

/-- The names in use; `T` are the transaction ids, of which the source draws a random one for each
run. -/
inductive FileName (T : Type) where
  | active (slot : Slot)
  | backup (slot : Slot)
  | temporary (slot : Slot) (transaction : T)
  | installJournal
  | installJournalTemporary (transaction : T)
  | revocationJournal
  | revocationJournalTemporary (transaction : T)
  | quarantined (slot : Slot) (transaction : T)
  deriving DecidableEq

variable {B T : Type}

/-- The name as the source has it. -/
def FileName.text [ToString T] : FileName T → String
  | .active slot => slot.fileName
  | .backup slot => "." ++ slot.fileName ++ ".previous"
  | .temporary slot transaction => "." ++ slot.stem ++ "." ++ toString transaction ++ ".tmp"
  | .installJournal => ".install.transaction"
  | .installJournalTemporary transaction => ".install." ++ toString transaction ++ ".journal.tmp"
  | .revocationJournal => ".revocation.transaction"
  | .revocationJournalTemporary transaction => ".revocation." ++ toString transaction ++ ".tmp"
  | .quarantined slot transaction =>
    ".revoked-" ++ toString transaction ++ "-" ++ slot.fileName

/-- How far an install has come. -/
inductive CertificateInstallPhase where
  | prepared
  | publishing
  | published
  deriving DecidableEq

/-- The journal of an install. -/
structure CertificateInstallJournal (T : Type) where
  transaction : T
  certExisted : Bool
  keyExisted : Bool
  phase : CertificateInstallPhase
  deriving DecidableEq

/-- The slot had a file before. -/
def CertificateInstallJournal.existed (journal : CertificateInstallJournal T) : Slot → Bool
  | .certificate => journal.certExisted
  | .privateKey => journal.keyExisted

/-- How far a revocation has come. -/
inductive RevocationPhase where
  | prepared
  | pairQuarantined
  | remotePending
  | remoteConfirmed
  deriving DecidableEq

/-- The journal's two file names are those of its transaction; the source refuses any others. -/
structure RevocationJournal (T : Type) where
  transaction : T
  phase : RevocationPhase
  deriving DecidableEq

/-- What a file holds: certificate or key bytes, a journal, or a write that was cut off. -/
inductive Contents (B T : Type) where
  | torn
  | bytes (bytes : B)
  | install (journal : CertificateInstallJournal T)
  | revocation (journal : RevocationJournal T)
  deriving DecidableEq

instance : Inhabited (Contents B T) := ⟨.torn⟩

/-- The errors of the store. -/
inductive AcmeCertificateInstallError (T : Type) where
  | unsafePath (path : FileName T) (message : String)
  | io (path : FileName T) (error : DirError)
  | transaction (message : String)
  deriving DecidableEq

/-- The directory, and the contents of all the files that a revocation had in quarantine when it
reached the remote-pending phase. -/
structure World (B T : Type) where
  dir : Directory (FileName T) (Contents B T)
  revoked : List (Contents B T)

/-- A managed directory with nothing in it. -/
def World.init : World B T := ⟨Directory.empty, []⟩

variable [DecidableEq B] [DecidableEq T]

/-- What an operation adds to the record: the pair in quarantine, if the journal on disk becomes one
in the remote-pending phase. -/
def newlyRevoked (before after : Directory (FileName T) (Contents B T)) : List (Contents B T) :=
  if before.read .revocationJournal = after.read .revocationJournal then []
  else
    match after.read .revocationJournal with
    | some (.revocation ⟨transaction, .remotePending⟩) =>
      (after.read (.quarantined .certificate transaction)).toList ++
        (after.read (.quarantined .privateKey transaction)).toList
    | _ => []

/-- Programs on the directory. -/
abbrev FileProg (B T : Type) := Prog (World B T) (AcmeCertificateInstallError T)

variable (path : FileName T)

/-- One operation on the directory. -/
def fileOp (f : Directory (FileName T) (Contents B T) →
      Except DirError (Directory (FileName T) (Contents B T))) : FileProg B T Unit :=
  Prog.op fun w =>
    match f w.dir with
    | .ok dir => .ok ((), ⟨dir, newlyRevoked w.dir dir ++ w.revoked⟩)
    | .error error => .error (.io path error)

/-- A rename. -/
def renameCertificateFile (source destination : FileName T) : FileProg B T Unit :=
  fileOp destination fun dir => dir.rename source destination

/-- Removes a file; one that is not there is none to remove. -/
def cleanupBackup : FileProg B T Unit :=
  fileOp path fun dir => .ok (dir.unlink path)

/-- A new file; until it is written, its contents are torn. -/
def writeNewFile (contents : Contents B T) : FileProg B T Unit := do
  fileOp path fun dir => dir.create path .torn
  fileOp path fun dir => dir.overwrite path contents

/-- The name has a file. -/
def certificateFileExistsRegular : FileProg B T Bool :=
  Prog.look fun w => (w.dir.read path).isSome

/-- Fails without the file. -/
def ensureExistingRegularFile : FileProg B T Unit := do
  if ← certificateFileExistsRegular path then pure ()
  else Prog.fail (.io path .notFound)

/-- Fails with the file. -/
def ensureCertificateSlotAbsent : FileProg B T Unit := do
  if ← certificateFileExistsRegular path then
    Prog.fail (.unsafePath path "managed certificate destination unexpectedly exists")
  else pure ()

variable (slot : Slot)

/-- Whether there was a file to back up. -/
def backupExistingFile : FileProg B T Bool := do
  if ← certificateFileExistsRegular (.active slot) then
    if ← certificateFileExistsRegular (.backup slot) then
      Prog.fail (.unsafePath (.backup slot) "backup path already exists")
    else
      fileOp (.backup slot) fun dir => dir.link (.active slot) (.backup slot)
      pure true
  else pure false

/-- The backup of a slot, if there is one, becomes active. -/
def restoreBackup : FileProg B T Unit := do
  if ← certificateFileExistsRegular (.backup slot) then
    renameCertificateFile (.backup slot) (.active slot)
  else pure ()

/-- The journal of an install, under a temporary name first. -/
def writeJournal (journal : CertificateInstallJournal T) : FileProg B T Unit := do
  cleanupBackup (.installJournalTemporary journal.transaction)
  writeNewFile (.installJournalTemporary journal.transaction) (.install journal)
  renameCertificateFile (.installJournalTemporary journal.transaction) .installJournal

/-- The journal of an install. -/
def readJournal : FileProg B T (Option (CertificateInstallJournal T)) := do
  match ← Prog.look fun w => w.dir.read .installJournal with
  | none => pure none
  | some (.install journal) => pure (some journal)
  | some _ => Prog.fail (.unsafePath .installJournal "ACME install journal is invalid")

/-- The slot has a backup. -/
def requireRegularBackup : FileProg B T Unit :=
  ensureExistingRegularFile (.backup slot)

/-- The slot becomes what it was before the install. -/
def restoreOriginal (existed : Bool) : FileProg B T Unit := do
  if existed then
    requireRegularBackup slot
    restoreBackup slot
  else cleanupBackup (.active slot)

/-- An install is undone, or finished. -/
def recoverInterruptedInstall : FileProg B T Unit := do
  match ← readJournal with
  | none => pure ()
  | some journal =>
    match journal.phase with
    | .prepared =>
      cleanupBackup (.backup .certificate)
      cleanupBackup (.backup .privateKey)
    | .publishing =>
      restoreOriginal .certificate journal.certExisted
      restoreOriginal .privateKey journal.keyExisted
    | .published =>
      cleanupBackup (.backup .certificate)
      cleanupBackup (.backup .privateKey)
    cleanupBackup (.temporary .certificate journal.transaction)
    cleanupBackup (.temporary .privateKey journal.transaction)
    cleanupBackup .installJournal

variable (transaction : T)

/-- The part of an install before its journal is on disk. -/
def stageInstall (fullchain privateKey : B) : FileProg B T Unit := do
  writeNewFile (.temporary .certificate transaction) (.bytes fullchain)
  writeNewFile (.temporary .privateKey transaction) (.bytes privateKey)
  writeJournal ⟨transaction, false, false, .prepared⟩

/-- The part after it. -/
def publishInstall : FileProg B T Unit := do
  let certBackedUp ← backupExistingFile .certificate
  let keyBackedUp ← backupExistingFile .privateKey
  writeJournal ⟨transaction, certBackedUp, keyBackedUp, .publishing⟩
  renameCertificateFile (.temporary .certificate transaction) (.active .certificate)
  renameCertificateFile (.temporary .privateKey transaction) (.active .privateKey)
  writeJournal ⟨transaction, certBackedUp, keyBackedUp, .published⟩
  cleanupBackup (.backup .certificate)
  cleanupBackup (.backup .privateKey)
  cleanupBackup .installJournal

/-! ### Revocations -/

variable (journal : RevocationJournal T)

/-- The journal of a revocation, under a temporary name first. -/
def writeRevocationJournal : FileProg B T Unit := do
  cleanupBackup (.revocationJournalTemporary journal.transaction)
  writeNewFile (.revocationJournalTemporary journal.transaction) (.revocation journal)
  renameCertificateFile (.revocationJournalTemporary journal.transaction) .revocationJournal

/-- The journal of a revocation. -/
def readRevocationJournal : FileProg B T (Option (RevocationJournal T)) := do
  match ← Prog.look fun w => w.dir.read .revocationJournal with
  | none => pure none
  | some (.revocation journal) => pure (some journal)
  | some _ => Prog.fail (.unsafePath .revocationJournal "ACME revocation journal is invalid")

/-- The journal goes. -/
def clearRevocationJournal : FileProg B T Unit :=
  cleanupBackup .revocationJournal

/-- Both files are in quarantine and none is active. -/
def ensureQuarantinedPair : FileProg B T Unit := do
  ensureCertificateSlotAbsent (.active .certificate)
  ensureCertificateSlotAbsent (.active .privateKey)
  ensureExistingRegularFile (.quarantined .certificate transaction)
  ensureExistingRegularFile (.quarantined .privateKey transaction)

/-- A file comes out of quarantine. -/
def restoreQuarantinedFile : FileProg B T Unit := do
  match ← certificateFileExistsRegular (.active slot),
      ← certificateFileExistsRegular (.quarantined slot transaction) with
  | true, false => pure ()
  | false, true =>
    ensureCertificateSlotAbsent (.active slot)
    renameCertificateFile (.quarantined slot transaction) (.active slot)
  | true, true =>
    Prog.fail (.unsafePath (.active slot)
      "both active and quarantined ACME certificate files exist")
  | false, false =>
    Prog.fail (.unsafePath (.active slot)
      "both active and quarantined ACME certificate files are missing")

/-- Both files come out of quarantine. -/
def restoreQuarantinedPair : FileProg B T Unit := do
  restoreQuarantinedFile .certificate transaction
  restoreQuarantinedFile .privateKey transaction
  ensureExistingRegularFile (.active .certificate)
  ensureExistingRegularFile (.active .privateKey)

/-- The phases in which the authority has not been asked to revoke anything yet. -/
def RevocationPhase.preRemote : RevocationPhase → Bool
  | .prepared => true
  | .pairQuarantined => true
  | .remotePending => false
  | .remoteConfirmed => false

section Recovery

variable [ToString T]

/-- A revocation is undone, finished, or left for a person to decide. -/
def recoverInterruptedRevocation : FileProg B T Unit := do
  match ← readRevocationJournal with
  | none => pure ()
  | some ⟨transaction, .remotePending⟩ =>
    ensureQuarantinedPair transaction
    Prog.fail (.unsafePath .revocationJournal
      ("ACME revocation outcome is ambiguous; certificate remains quarantined as "
        ++ (FileName.quarantined .certificate transaction).text ++ " and "
        ++ (FileName.quarantined .privateKey transaction).text
        ++ "; operator resolution is required"))
  | some ⟨transaction, .remoteConfirmed⟩ =>
    ensureQuarantinedPair transaction
    clearRevocationJournal
  | some journal =>
    restoreQuarantinedPair journal.transaction
    clearRevocationJournal

/-- Both recoveries. -/
def recoverManagedCertificateTransaction : FileProg B T Unit := do
  recoverInterruptedRevocation
  recoverInterruptedInstall

/-- An install.  When it fails after its journal was written it recovers from itself; a failure of
that recovery is only logged. -/
def installCertificateFiles (transaction : T) (fullchain privateKey : B) : FileProg B T Unit := do
  recoverInterruptedRevocation
  recoverInterruptedInstall
  match ← Prog.attempt (stageInstall transaction fullchain privateKey) with
  | .error error =>
    let _ ← Prog.attempt (do
      cleanupBackup (.temporary .certificate transaction)
      cleanupBackup (.temporary .privateKey transaction))
    Prog.fail error
  | .ok () =>
    match ← Prog.attempt (publishInstall transaction) with
    | .error error =>
      let _ ← Prog.attempt recoverInterruptedInstall
      Prog.fail error
    | .ok () => pure ()

/-- Moves the active pair into quarantine.  The install journal is not looked at. -/
def beginManagedCertificateQuarantine (transaction : T) : FileProg B T (RevocationJournal T) := do
  recoverInterruptedRevocation
  ensureExistingRegularFile (.active .certificate)
  ensureExistingRegularFile (.active .privateKey)
  writeRevocationJournal ⟨transaction, .prepared⟩
  renameCertificateFile (.active .certificate) (.quarantined .certificate transaction)
  match ← Prog.attempt
      (renameCertificateFile (.active .privateKey) (.quarantined .privateKey transaction)) with
  | .error error =>
    match ← Prog.attempt
        (renameCertificateFile (.quarantined .certificate transaction) (.active .certificate)) with
    | .ok () =>
      let _ ← Prog.attempt clearRevocationJournal
      Prog.fail error
    | .error _ => Prog.fail error
  | .ok () =>
    writeRevocationJournal ⟨transaction, .pairQuarantined⟩
    pure ⟨transaction, .pairQuarantined⟩

end Recovery

/-- The journal that the open revocation holds in memory is replaced only when the one on disk
is. -/
def updatePhase (phase : RevocationPhase) : FileProg B T (RevocationJournal T) := do
  writeRevocationJournal { journal with phase }
  pure { journal with phase }

/-- The authority is about to be asked. -/
def markRemotePending : FileProg B T (RevocationJournal T) :=
  updatePhase journal .remotePending

/-- The authority has revoked the certificate. -/
def markRemoteConfirmed : FileProg B T (RevocationJournal T) :=
  updatePhase journal .remoteConfirmed

/-- The end of a revocation. -/
def complete (journal : RevocationJournal T) : FileProg B T Unit := do
  if journal.phase = .remoteConfirmed then clearRevocationJournal
  else Prog.fail (.transaction "ACME revocation cannot complete before remote confirmation")

/-- What happens to a revocation that is given up: it is undone, if the authority was not asked.  A
failure is only logged. -/
def dropQuarantine : FileProg B T Unit := do
  if journal.phase.preRemote then
    let _ ← Prog.attempt (do
      restoreQuarantinedPair journal.transaction
      clearRevocationJournal)
    pure ()
  else pure ()

/-- The program, with the open revocation given up if it fails. -/
def orDrop {α : Type} (journal : RevocationJournal T) (program : FileProg B T α) :
    FileProg B T α := do
  match ← Prog.attempt program with
  | .ok value => pure value
  | .error error =>
    dropQuarantine journal
    Prog.fail error

/-- `read_quarantined_certificate` and the parsing of its leaf; `leaf` says whether the file is a
bounded PEM chain with a leaf certificate. -/
def readQuarantinedLeaf (leaf : Bool) : FileProg B T Unit := do
  ensureExistingRegularFile (.quarantined .certificate journal.transaction)
  if leaf then pure ()
  else Prog.fail (.transaction "failed to parse quarantined certificate")

/-- `revoke_instant_acme_certificate`, as far as it acts on the directory; `confirmed` says whether
the authority confirms the revocation. -/
def revokeInstantAcmeCertificate [ToString T] (transaction : T) (leaf confirmed : Bool) :
    FileProg B T Unit := do
  let journal ← beginManagedCertificateQuarantine transaction
  orDrop journal (readQuarantinedLeaf journal leaf)
  let journal ← orDrop journal (markRemotePending journal)
  orDrop journal (do
    if confirmed then pure ()
    else Prog.fail (.transaction "remote revocation outcome is ambiguous"))
  let journal ← orDrop journal (markRemoteConfirmed journal)
  orDrop journal (complete journal)

/-- What a run is for. -/
inductive Job (B T : Type) where
  | install (transaction : T) (fullchain privateKey : B)
  | recover
  | revoke (transaction : T) (leaf confirmed : Bool)

variable [ToString T]

/-- The program of a job. -/
def Job.program : Job B T → FileProg B T Unit
  | .install transaction fullchain privateKey =>
    installCertificateFiles transaction fullchain privateKey
  | .recover => recoverManagedCertificateTransaction
  | .revoke transaction leaf confirmed => revokeInstantAcmeCertificate transaction leaf confirmed

/-- One run, and after how many file operations it is cut off if it has not ended by then. -/
structure JobRun (B T : Type) where
  job : Job B T
  budget : ℕ

/-- The directory after a job that may be cut off. -/
def World.run (w : World B T) (run : JobRun B T) : World B T :=
  (run.job.program w run.budget).state

end Fluxheim.Acme
