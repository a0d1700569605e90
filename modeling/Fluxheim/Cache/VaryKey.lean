import Fluxheim.Cache.DiskMeta

/-!
# The keys of variants

The key of a variant is the primary key with a digest of the request headers that matter.  As the
digest has a fixed width, a variant belongs to one primary key.
-/

namespace Fluxheim.Cache

open Ascii

/-- The bytes of a number, the lowest first. -/
def toLeBytes : ℕ → ℕ → Bytes
  | 0, _ => []
  | width + 1, n => UInt8.ofNat (n % 256) :: toLeBytes width (n / 256)

/-- A text with its length before it. -/
def appendVaryHashComponent (material bytes : Bytes) : Bytes :=
  material ++ (toLeBytes 8 bytes.length ++ bytes)

/-- The values of a header, in any case of its name. -/
def headerValues (headers : List Header) (name : Bytes) : List Bytes :=
  headers.filterMap fun header => if eqIgnoreCase header.1.1 name then some header.2.1 else none

/-- What is hashed: the names and the values. -/
def varyRequestHashMaterial (fields : List Text) (headers : List Header) : Bytes :=
  fields.foldl (fun material field =>
      (headerValues headers field.1).foldl appendVaryHashComponent
        (appendVaryHashComponent material field.1 ++
          toLeBytes 4 (headerValues headers field.1).length))
    (ascii "fluxheim-vary-v2")

/-- A digest of 256 bits in URL-safe base64 without padding. -/
abbrev Variance := { x : Bytes // x.length = 43 ∧ ∀ b ∈ x, b < 0x80 }

def VARY_MARK : Bytes := ascii ";vary-sha256:"

/-- The key of a variant; `digest` is SHA-256 and then base64, which cannot fail here. -/
def nativeVaryCacheKey (digest : Bytes → Variance) (baseKey : Text) (fields : List Text)
    (headers : List Header) : Text :=
  let variance := digest (varyRequestHashMaterial fields headers)
  ⟨baseKey.1 ++ (VARY_MARK ++ variance.1), utf8Valid_append baseKey.2
    (utf8Valid_append (by decide) (utf8Valid_of_ascii variance.2.2))⟩

/-- The keys that a primary key has variants under. -/
def IsVariantOf (primary key : Text) : Prop :=
  ∃ variance : Variance, key.1 = primary.1 ++ (VARY_MARK ++ variance.1)

theorem isVariantOf_key (digest : Bytes → Variance) (baseKey : Text) (fields : List Text)
    (headers : List Header) : IsVariantOf baseKey
    (nativeVaryCacheKey digest baseKey fields headers) :=
  ⟨_, rfl⟩

/-- **A variant belongs to one primary key.** -/
theorem IsVariantOf.unique {primary other key : Text} (h : IsVariantOf primary key)
    (h' : IsVariantOf other key) : primary = other := by
  obtain ⟨variance, hkey⟩ := h
  obtain ⟨variance', hkey'⟩ := h'
  have hlen : (VARY_MARK ++ variance.1).length = (VARY_MARK ++ variance'.1).length := by
    rw [List.length_append, List.length_append, variance.2.1, variance'.2.1]
  have happ := hkey.symm.trans hkey'
  exact Subtype.ext (List.append_inj_left' happ hlen)

end Fluxheim.Cache
