import Fluxheim.Lib.Components
import Fluxheim.Lib.Framed
import Fluxheim.Snapshot.Integrity

/-!
# What the integrity key authenticates

One key signs snapshots, generation witnesses and three kinds of state files.  Each kind has a label
that ends at its only zero byte, and the fields behind it are told apart by their lengths.
-/

namespace Fluxheim.Snapshot

open Ascii Fallible Framed List

/-- What a signature is for. -/
inductive MacPurpose
  | snapshot
  | witness
  | recovery
  | generation
  | pruneBoundary
  deriving DecidableEq

namespace MacPurpose

/-- The label of a purpose. -/
def label : MacPurpose → Bytes
  | snapshot => SNAPSHOT_MAC_LABEL
  | witness => GENERATION_WITNESS_MAC_LABEL
  | recovery => RECOVERY_MAC_LABEL
  | generation => GENERATION_MAC_LABEL
  | pruneBoundary => PRUNE_BOUNDARY_MAC_LABEL

/-- A label ends at its only zero byte. -/
theorem label_eq (p : MacPurpose) : ∃ name, 0 ∉ name ∧ p.label = name ++ [0] := by
  refine ⟨p.label.dropLast, ?_⟩
  cases p <;> decide +kernel

theorem label_injective : Function.Injective label := by
  intro p p'
  cases p <;> cases p' <;> decide +kernel

end MacPurpose

/-- A message by its purpose, with the fields that are authenticated. -/
inductive MacMessage
  | snapshot (id config metadata : Slice)
  | witness (id : Slice) (generation : { n : ℕ // n < 2 ^ 64 })
  | recovery (bytes : Slice)
  | generation (bytes : Slice)
  | pruneBoundary (bytes : Slice)

namespace MacMessage

/-- The purpose of a message. -/
def purpose : MacMessage → MacPurpose
  | snapshot .. => .snapshot
  | witness .. => .witness
  | recovery _ => .recovery
  | generation _ => .generation
  | pruneBoundary _ => .pruneBoundary

/-- What is given to the digest behind the label. -/
def body : MacMessage → List Bytes
  | snapshot id config metadata =>
    [u64BeBytes id.1.length, id, u64BeBytes config.1.length, config,
      u64BeBytes metadata.1.length, metadata]
  | witness id number => [u64BeBytes id.1.length, id, u64BeBytes number]
  | recovery bytes | generation bytes | pruneBoundary bytes => [u64BeBytes bytes.1.length, bytes]

/-- What the digest is taken of. -/
def chunks (m : MacMessage) : List Bytes := m.purpose.label :: m.body

/-- The bytes that are authenticated. -/
def input (m : MacMessage) : Bytes := m.chunks.flatten

theorem flatten_field (x : Slice) (rest : List Bytes) :
    (u64BeBytes x.1.length :: x.1 :: rest).flatten = field x ++ rest.flatten := by
  rfl

theorem input_injective : Function.Injective input := by
  intro m m' h
  obtain ⟨name, hz, hl⟩ := m.purpose.label_eq
  obtain ⟨name', hz', hl'⟩ := m'.purpose.label_eq
  have hi : name ++ 0 :: m.body.flatten = name' ++ 0 :: m'.body.flatten := by
    simpa [input, chunks, hl, hl'] using h
  obtain ⟨rfl, hbody⟩ := Components.append_cons_inj hz hz' hi
  have hp : m.purpose = m'.purpose := MacPurpose.label_injective (hl.trans hl'.symm)
  -- for one purpose the fields are told apart
  cases m <;> cases m' <;>
    first | (simp [purpose] at hp; done) | simp only [body, flatten_field] at hbody
  case snapshot =>
    obtain ⟨rfl, h1⟩ := field_append_inj hbody
    obtain ⟨rfl, h2⟩ := field_append_inj h1
    rw [(field_append_inj h2).1]
  case witness id g _ g' =>
    obtain ⟨rfl, h1⟩ := field_append_inj hbody
    have hg : u64BeBytes g = u64BeBytes g' := by simpa using h1
    rw [Subtype.ext (toBeBytes_inj g.2 g'.2 hg)]
  all_goals rw [(field_append_inj hbody).1]

end MacMessage

/-- A signature is accepted for a message: by `verify` as the one of a manifest, by
`verify_generation_witness` as the one of a generation, and by `verify_state`. -/
def SnapshotIntegrityKey.Accepts (key : SnapshotIntegrityKey) (tag : Digest) : MacMessage → Prop
  | .snapshot id config metadata => ∃ generation manifest,
      key.verify id config metadata generation manifest = .ok () ∧
      decodeHex32 manifest.common.metadataHmacSha256 = some tag
  | .witness id generation => ∃ witness, key.verifyGenerationWitness id witness = .ok generation.1 ∧
      decodeHex32 witness.generationHmacSha256 = some tag
  | .recovery bytes => key.verifyState RECOVERY_MAC_LABEL bytes tag = true
  | .generation bytes => key.verifyState GENERATION_MAC_LABEL bytes tag = true
  | .pruneBoundary bytes => key.verifyState PRUNE_BOUNDARY_MAC_LABEL bytes tag = true

theorem sign_of_checked {α : Type} {v : Bytes} {tag : Digest} {e : SnapshotError}
    {sign : Except SnapshotError Digest} {a b : α} (ht : decodeHex32 v = some tag)
    (h : (do
      let expected ← okOr (decodeHex32 v) e
      let signature ← sign
      if signature = expected then pure a else .error e) = .ok b) : sign = .ok tag ∧ a = b := by
  obtain ⟨_, h1, h⟩ := bind_eq_ok.1 h
  obtain rfl := Option.some.inj (ht.symm.trans (okOr_eq_ok.1 h1))
  obtain ⟨signature, hs, h⟩ := bind_eq_ok.1 h
  split_ifs at h with h2
  exact ⟨h2 ▸ hs, Except.ok.inj h⟩

theorem hmac_of_accepts {key : SnapshotIntegrityKey} {tag : Digest} {m : MacMessage}
    (h : key.Accepts tag m) : key.provider.hmacSha256 key.secret m.chunks = .ok tag := by
  have hlift : ∀ r : Except String Digest, liftCrypto r = .ok tag → r = .ok tag := by
    rintro (e | d) <;> simp [liftCrypto]
  have hstate : ∀ label state, key.verifyState label state tag = true →
      key.provider.hmacSha256 key.secret [label, u64BeBytes state.length, state] = .ok tag := by
    intro label state
    rw [SnapshotIntegrityKey.verifyState]
    split <;> simp [*, Subtype.ext_iff]
  cases m
  case snapshot id config metadata =>
    obtain ⟨generation, manifest, hv, ht⟩ := h
    obtain ⟨-, hv⟩ := ite_error_eq_ok.1 hv
    obtain ⟨_, -, hv⟩ := bind_eq_ok.1 hv
    obtain ⟨-, hv⟩ := ite_error_eq_ok.1 hv
    obtain ⟨_, -, hv⟩ := bind_eq_ok.1 hv
    exact hlift _ (sign_of_checked ht hv).1
  case witness id g =>
    obtain ⟨w, hv, ht⟩ := h
    obtain ⟨_, -, hv⟩ := bind_eq_ok.1 hv
    obtain ⟨-, hv⟩ := ite_error_eq_ok.1 hv
    obtain ⟨hs, hg⟩ := sign_of_checked ht hv
    rw [hg] at hs
    exact hlift _ hs
  all_goals exact hstate _ _ h

/-- **Messages with the same authenticated bytes have the same purpose and the same fields; a
signature that is accepted for two messages is a collision of the keyed digest.** -/
theorem mac_domains (key : SnapshotIntegrityKey) (m m' : MacMessage) :
    (m.input = m'.input ↔ m = m') ∧
    ∀ tag, key.Accepts tag m → key.Accepts tag m' → m ≠ m' → m.input ≠ m'.input ∧
      key.provider.hmacSha256 key.secret m.chunks =
        key.provider.hmacSha256 key.secret m'.chunks := by
  refine ⟨MacMessage.input_injective.eq_iff, fun tag h h' hne => ⟨?_, ?_⟩⟩
  · rwa [Ne, MacMessage.input_injective.eq_iff]
  · rw [hmac_of_accepts h, hmac_of_accepts h']

/-- With a digest that is always the same every signature is a collision. -/
theorem mac_domains_constant :
    let seven := ⟨ascii "generation = 7", by decide⟩
    let eight := ⟨ascii "generation = 8", by decide⟩
    MacMessage.input (.recovery seven) ≠ MacMessage.input (.generation seven) ∧
      MacMessage.input (.recovery seven) ≠ MacMessage.input (.recovery eight) := by
  intro seven eight
  let digest : Digest := ⟨replicate 32 0, by decide⟩
  have hcollide := mac_domains ⟨[], [], fun _ => .ok digest, fun _ _ => .ok digest⟩
    (.recovery seven)
  exact ⟨((hcollide (.generation seven)).2 digest (beq_self_eq_true _) (beq_self_eq_true _)
      (by simp)).1,
    ((hcollide (.recovery eight)).2 digest (beq_self_eq_true _) (beq_self_eq_true _)
      fun h => absurd (Subtype.ext_iff.1 (MacMessage.recovery.inj h)) (by decide)).1⟩

end Fluxheim.Snapshot
