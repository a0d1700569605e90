import Fluxheim.Lib.Ascii
import Fluxheim.Lib.Search

/-!
# Labelled components

A component is a label and a value of known length, `label:length:value;`, so that the value may
hold any bytes.  Labels hold no colon.
-/

namespace Components

open Ascii List

/-- A label and a value. -/
abbrev Component := Bytes × Bytes

variable (c : Component)

/-- The bytes of a component. -/
def component : Bytes :=
  c.1 ++ 58 :: (decimal c.2.length ++ 58 :: (c.2 ++ [59]))

/-- Components one after the other. -/
def encode (cs : List Component) : Bytes := cs.flatMap component

/-- A label holds no colon. -/
def Labelled : Prop := 58 ∉ c.1

@[simp] theorem encode_nil : encode [] = [] := rfl

@[simp] theorem encode_cons (cs : List Component) :
    encode (c :: cs) = component c ++ encode cs := rfl

@[simp] theorem encode_append (cs ds : List Component) :
    encode (cs ++ ds) = encode cs ++ encode ds :=
  flatMap_append

theorem component_ne_nil : component c ≠ [] := by
  simp [component]

/-- What stands before the first occurrence of a separator, and after it, is determined. -/
theorem append_cons_inj {a : UInt8} {l l' r r' : Bytes} (hl : a ∉ l) (hl' : a ∉ l')
    (h : l ++ a :: r = l' ++ a :: r') : l = l' ∧ r = r' := by
  have hsplit := Search.splitOnce_eq_some_iff.2 ⟨h, hl'⟩
  rw [Search.splitOnce_eq_some_iff.2 ⟨rfl, hl⟩] at hsplit
  exact Prod.mk.inj (Option.some.inj hsplit)

theorem colon_not_mem_decimal (n : ℕ) : 58 ∉ decimal n := fun h => by
  have := all_eq_true.1 (decimal_all_isDigit n) 58 h
  revert this
  decide

/-- A component and what follows it are determined by the bytes. -/
theorem component_append_inj {c d : Component} {x y : Bytes} (hc : Labelled c) (hd : Labelled d)
    (h : component c ++ x = component d ++ y) : c = d ∧ x = y := by
  simp only [component, append_assoc, cons_append] at h
  obtain ⟨hlabel, hrest⟩ := append_cons_inj hc hd h
  obtain ⟨hlength, hv⟩ :=
    append_cons_inj (colon_not_mem_decimal _) (colon_not_mem_decimal _) hrest
  have hlen : c.2.length = d.2.length := by
    have := congrArg decimalValue hlength
    rwa [decimalValue_decimal, decimalValue_decimal] at this
  obtain ⟨hv, hrest⟩ := append_inj hv hlen
  exact ⟨Prod.ext hlabel hv, (cons.inj hrest).2⟩

/-- Two lists of components are equal if their bytes are. -/
theorem encode_inj {cs ds : List Component} (hcs : ∀ c ∈ cs, Labelled c)
    (hds : ∀ d ∈ ds, Labelled d) (h : encode cs = encode ds) : cs = ds := by
  induction cs generalizing ds with
  | nil =>
    cases ds with
    | nil => rfl
    | cons d ds => exact absurd (append_eq_nil_iff.1 h.symm).1 (component_ne_nil d)
  | cons c cs ih =>
    cases ds with
    | nil => exact absurd (append_eq_nil_iff.1 h).1 (component_ne_nil c)
    | cons d ds =>
      rw [forall_mem_cons] at hcs hds
      obtain ⟨rfl, hrest⟩ := component_append_inj hcs.1 hds.1 h
      rw [ih hcs.2 hds.2 hrest]

end Components
