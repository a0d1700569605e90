import Mathlib.Algebra.Group.Nat.Defs
import Fluxheim.Lib.Ascii

/-!
# Fields behind their length

A field is written as its length, a number of 64 bits in big-endian order, and its bytes; so a field
may hold any bytes, and fields one after the other are told apart.
-/

namespace Framed

open Ascii List

/-- `to_be_bytes` of a number of 64 bits. -/
def toBeBytes (n : ℕ) : Bytes := (range 8).map fun i => UInt8.ofNat (n / 256 ^ (7 - i))

@[simp] theorem length_toBeBytes (n : ℕ) : (toBeBytes n).length = 8 := by simp [toBeBytes]

theorem toBeBytes_inj {n m : ℕ} (hn : n < 2 ^ 64) (hm : m < 2 ^ 64)
    (h : toBeBytes n = toBeBytes m) : n = m := by
  have hb : ∀ i < 8, n / 256 ^ (7 - i) % 256 = m / 256 ^ (7 - i) % 256 := fun i hi => by
    have := map_inj_left.1 h i (mem_range.2 hi)
    simpa using congrArg UInt8.toNat this
  have h0 := hb 0; have h1 := hb 1; have h2 := hb 2; have h3 := hb 3
  have h4 := hb 4; have h5 := hb 5; have h6 := hb 6; have h7 := hb 7
  norm_num at h0 h1 h2 h3 h4 h5 h6 h7
  omega

/-- A byte slice: its length is a number of 64 bits. -/
abbrev Slice := { x : Bytes // x.length < 2 ^ 64 }

/-- A field: its length and its bytes. -/
def field (x : Bytes) : Bytes := toBeBytes x.length ++ x

theorem field_append_inj {x y : Slice} {r s : Bytes} (h : field x ++ r = field y ++ s) :
    x = y ∧ r = s := by
  simp only [field, append_assoc] at h
  obtain ⟨hc, h⟩ := append_inj h (by simp)
  obtain ⟨hx, hr⟩ := append_inj h (toBeBytes_inj x.2 y.2 hc)
  exact ⟨Subtype.ext hx, hr⟩

/-- Fields one after the other. -/
def fields (xs : List Bytes) : Bytes := xs.flatMap field

theorem fields_inj {xs ys : List Bytes} (hx : ∀ x ∈ xs, x.length < 2 ^ 64)
    (hy : ∀ y ∈ ys, y.length < 2 ^ 64) (h : fields xs = fields ys) : xs = ys := by
  induction xs generalizing ys with
  | nil =>
    cases ys with
    | nil => rfl
    | cons y ys => simpa [fields, field] using congrArg length h.symm
  | cons x xs ih =>
    cases ys with
    | nil => simpa [fields, field] using congrArg length h
    | cons y ys =>
      rw [forall_mem_cons] at hx hy
      obtain ⟨hxy, hs⟩ := field_append_inj (x := ⟨x, hx.1⟩) (y := ⟨y, hy.1⟩) h
      rw [ih hx.2 hy.2 hs, Subtype.mk.inj hxy]

end Framed
