import Fluxheim.Snapshot.Metadata
import Fluxheim.Lib.Fallible

/-!
# The integrity of the store

With a key, every file of the store is signed: a snapshot by its manifest, and the state files by a
signature that stands beside what is signed.
-/

namespace Fluxheim.Snapshot

open Ascii Fallible

/-- A digest of 32 bytes. -/
abbrev Digest := { digest : Bytes // digest.length = 32 }

/-- The digests, which may fail. -/
structure SnapshotCryptoProvider where
  sha256 : List Bytes → Except String Digest
  hmacSha256 : Bytes → List Bytes → Except String Digest

/-- The key. -/
structure SnapshotIntegrityKey where
  secret : Bytes
  keyId : Bytes
  provider : SnapshotCryptoProvider

/-- The labels of what is signed. -/
def SNAPSHOT_MAC_LABEL : Bytes := ascii "fluxheim-snapshot-v1" ++ [0]
def GENERATION_WITNESS_MAC_LABEL : Bytes := ascii "fluxheim-snapshot-generation-witness-v1" ++ [0]
def RECOVERY_MAC_LABEL : Bytes := ascii "fluxheim-snapshot-recovery-v1" ++ [0]
def GENERATION_MAC_LABEL : Bytes := ascii "fluxheim-snapshot-generation-v1" ++ [0]
def PRUNE_BOUNDARY_MAC_LABEL : Bytes := ascii "fluxheim-snapshot-prune-boundary-v1" ++ [0]

/-- `to_be_bytes` of a number of 64 bits. -/
def u64BeBytes (n : ℕ) : Bytes := (List.range 8).map fun i => UInt8.ofNat (n / 256 ^ (7 - i))

/-- A digest of 64 digits. -/
def decodeHex32 (value : Bytes) : Option Digest :=
  if value.length ≠ 64 then none
  else
    match hexDecode value with
    | none => none
    | some digest => if h : digest.length = 32 then some ⟨digest, h⟩ else none

theorem decodeHex32_hexEncode (digest : Digest) : decodeHex32 (hexEncode digest) = some digest := by
  have hlen : (hexEncode digest.1).length = 64 := by rw [length_hexEncode, digest.2]
  rw [decodeHex32, if_neg (not_not.2 hlen), hexDecode_hexEncode]
  exact dif_pos digest.2

/-- The errors of the provider are errors of the store. -/
def liftCrypto {α : Type} : Except String α → Except SnapshotError α
  | .ok a => .ok a
  | .error message => .error (.cryptoProvider message)

/-! ### Manifests -/

/-- What both versions have. -/
structure ManifestCommon where
  algorithm : Bytes
  keyId : Bytes
  configSha256 : Bytes
  metadataHmacSha256 : Bytes

/-- The second version signs the generation by itself. -/
structure SnapshotIntegrityManifestV2 extends ManifestCommon where
  generation : ℕ
  generationHmacSha256 : Bytes

/-- The two versions. -/
inductive SnapshotIntegrityManifest where
  | v2 (manifest : SnapshotIntegrityManifestV2)
  | v1 (manifest : ManifestCommon)

/-- What both have. -/
def SnapshotIntegrityManifest.common : SnapshotIntegrityManifest → ManifestCommon
  | v2 manifest => manifest.toManifestCommon
  | v1 manifest => manifest

namespace SnapshotIntegrityKey

variable (key : SnapshotIntegrityKey)

/-- The signature of a generation alone. -/
def signGenerationWitness (id : Bytes) (generation : ℕ) : Except SnapshotError Digest :=
  liftCrypto (key.provider.hmacSha256 key.secret
    [GENERATION_WITNESS_MAC_LABEL, u64BeBytes id.length, id, u64BeBytes generation])

/-- The signature of a snapshot. -/
def signResult (id config metadata : Bytes) : Except SnapshotError Digest :=
  liftCrypto (key.provider.hmacSha256 key.secret
    [SNAPSHOT_MAC_LABEL, u64BeBytes id.length, id, u64BeBytes config.length, config,
      u64BeBytes metadata.length, metadata])

/-- The manifest of a snapshot. -/
def manifest (id config metadata : Bytes) (generation : ℕ) :
    Except SnapshotError SnapshotIntegrityManifest := do
  let configDigest ← liftCrypto (key.provider.sha256 [config])
  let signature ← key.signResult id config metadata
  let generationSignature ← key.signGenerationWitness id generation
  pure (.v2
    { algorithm := ascii "hmac-sha256"
      keyId := key.keyId
      configSha256 := hexEncode configDigest
      metadataHmacSha256 := hexEncode signature
      generation := generation
      generationHmacSha256 := hexEncode generationSignature })

/-- The generation, if its signature is right. -/
def verifyGenerationWitness (id : Bytes) (witness : SnapshotIntegrityManifestV2) :
    Except SnapshotError ℕ := do
  validateSnapshotId id
  if witness.algorithm ≠ ascii "hmac-sha256" || witness.keyId ≠ key.keyId then
    .error (.integrityVerificationFailed id)
  else do
    let expected ← okOr (decodeHex32 witness.generationHmacSha256) (.integrityVerificationFailed id)
    let signature ← key.signGenerationWitness id witness.generation
    if signature = expected then pure witness.generation
    else .error (.integrityVerificationFailed id)

/-- The generation of the metadata is the one that is signed, where one is. -/
def verifyWitnessOf (id : Bytes) (generation : ℕ) :
    SnapshotIntegrityManifest → Except SnapshotError Unit
  | .v1 _ => .ok ()
  | .v2 witness =>
    if witness.generation ≠ generation then .error (.integrityVerificationFailed id)
    else (key.verifyGenerationWitness id witness).map fun _ => ()

/-- A snapshot against its manifest. -/
def verify (id config metadata : Bytes) (generation : ℕ) (manifest : SnapshotIntegrityManifest) :
    Except SnapshotError Unit := do
  let common := manifest.common
  if common.algorithm ≠ ascii "hmac-sha256" || common.keyId ≠ key.keyId then
    .error (.integrityVerificationFailed id)
  else do
    let configDigest ← liftCrypto (key.provider.sha256 [config])
    if hexEncode configDigest ≠ common.configSha256 then .error (.integrityVerificationFailed id)
    else do
      key.verifyWitnessOf id generation manifest
      let expected ← okOr (decodeHex32 common.metadataHmacSha256) (.integrityVerificationFailed id)
      let signature ← key.signResult id config metadata
      if signature = expected then pure () else .error (.integrityVerificationFailed id)

/-- The signature of a state file. -/
def signState (label state : Bytes) : Except SnapshotError Bytes := do
  let digest ← liftCrypto
    (key.provider.hmacSha256 key.secret [label, u64BeBytes state.length, state])
  pure (hexEncode digest)

/-- A state file against its signature. -/
def verifyState (label state : Bytes) (signature : Digest) : Bool :=
  match key.provider.hmacSha256 key.secret [label, u64BeBytes state.length, state] with
  | .ok digest => digest == signature
  | .error _ => false

/-- A manifest of the second version is accepted only with the generation of the metadata, and with
the signature of it. -/
theorem verifyGenerationWitness_of_verify {id config metadata : Bytes} {generation : ℕ}
    {witness : SnapshotIntegrityManifestV2}
      (h : key.verify id config metadata generation (.v2 witness) = .ok ()) :
    key.verifyGenerationWitness id witness = .ok generation := by
  obtain ⟨-, h⟩ := ite_error_eq_ok.1 h
  obtain ⟨configDigest, -, h⟩ := bind_eq_ok.1 h
  obtain ⟨-, h⟩ := ite_error_eq_ok.1 h
  obtain ⟨⟨⟩, hwit, -⟩ := bind_eq_ok.1 h
  obtain ⟨hgen, hwit⟩ := ite_error_eq_ok.1 hwit
  obtain ⟨g, hg, -⟩ := map_eq_ok.1 hwit
  rw [hg, ← not_not.1 hgen]
  -- the generation that is returned is the one of the witness
  obtain ⟨⟨⟩, -, hg⟩ := bind_eq_ok.1 hg
  split_ifs at hg
  obtain ⟨expected, -, hg⟩ := bind_eq_ok.1 hg
  obtain ⟨signature, -, hg⟩ := bind_eq_ok.1 hg
  split_ifs at hg
  rw [← Except.ok.inj hg]

end SnapshotIntegrityKey

/-- The key id and the signature that a state file is written with. -/
abbrev Seal := Option Bytes × Option Bytes

variable (key : Option SnapshotIntegrityKey)

/-- The signature, if there is a key. -/
def sealState (label state : Bytes) : Except SnapshotError Seal :=
  match key with
  | none => .ok (none, none)
  | some key => (key.signState label state).map fun signature => (some key.keyId, some signature)

/-- Whether a state file is accepted: with a key only under its signature, and without one only
unsigned. -/
def opensState (label state : Bytes) (sig : Seal) : Bool :=
  match key with
  | none => sig.1.isNone && sig.2.isNone
  | some key =>
    match sig.2.bind decodeHex32 with
    | none => false
    | some signature => sig.1 == some key.keyId && key.verifyState label state signature

theorem opensState_sealState {key : Option SnapshotIntegrityKey} {label state : Bytes} {sig : Seal}
    (h : sealState key label state = .ok sig) : opensState key label state sig = true := by
  cases key with
  | none =>
    obtain rfl := Except.ok.inj h
    rfl
  | some key =>
    obtain ⟨signature, hsign, rfl⟩ := map_eq_ok.1 h
    obtain ⟨digest, hdig, hsign⟩ := bind_eq_ok.1 hsign
    obtain rfl := Except.ok.inj hsign
    have hmac : key.provider.hmacSha256 key.secret [label, u64BeBytes state.length, state] =
        .ok digest := by
      cases hres : key.provider.hmacSha256 key.secret
          [label, u64BeBytes state.length, state] with
      | ok digest' =>
        rw [hres] at hdig
        exact congrArg Except.ok (Except.ok.inj hdig)
      | error message =>
        rw [hres] at hdig
        cases hdig
    simp only [opensState, Option.bind_some, decodeHex32_hexEncode,
      SnapshotIntegrityKey.verifyState, hmac, beq_self_eq_true, Bool.and_self]

/-- How values of a type are written to files and read back. -/
structure Codec (α : Type) where
  encode : α → Option Bytes
  decode : Bytes → Option α
  decode_encode : ∀ {a raw}, encode a = some raw → decode raw = some a
  utf8_encode : ∀ {a raw}, encode a = some raw → utf8Valid raw = true

end Fluxheim.Snapshot
