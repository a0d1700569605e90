import Mathlib.Data.List.AList
import Mathlib.Order.Basic
import Mathlib.Tactic

/-!
# Ordered sets and weighted tables

A finite set as a strictly increasing list, the first element of which is the least, and the sum of
the weights of the values of a table.  Both are seen through membership and lookups.
-/

namespace ByteOrder

open List

/-- Bytes in the order of their values. -/
scoped instance linearOrder : LinearOrder UInt8 where
  le_refl _ := UInt8.le_refl _
  le_trans _ _ _ := UInt8.le_trans
  lt_iff_le_not_ge _ _ := by
    rw [UInt8.not_le]
    exact ⟨fun h => ⟨UInt8.le_of_lt h, h⟩, And.right⟩
  le_antisymm _ _ := UInt8.le_antisymm
  le_total _ _ := UInt8.le_total _ _
  toDecidableLE := inferInstance
  toDecidableEq := inferInstance
  toDecidableLT := inferInstance

end ByteOrder

/-- A finite set, in increasing order. -/
structure OrderedSet (α : Type*) [LinearOrder α] where
  elems : List α
  sorted : elems.Pairwise (· < ·)

namespace OrderedSet

variable {α : Type*} [LinearOrder α]

instance : Membership α (OrderedSet α) := ⟨fun s a => a ∈ s.elems⟩

variable {s : OrderedSet α}

theorem mem_def {a : α} : a ∈ s ↔ a ∈ s.elems := Iff.rfl

instance (a : α) (s : OrderedSet α) : Decidable (a ∈ s) :=
  inferInstanceAs (Decidable (a ∈ s.elems))

/-- The empty set. -/
def empty : OrderedSet α := ⟨[], List.Pairwise.nil⟩

/-- A new element goes before the first greater one. -/
def insertSorted (a : α) : List α → List α
  | [] => [a]
  | b :: l => if a < b then a :: b :: l else if a = b then b :: l else b :: insertSorted a l

theorem mem_insertSorted {a b : α} {l : List α} : b ∈ insertSorted a l ↔ b = a ∨ b ∈ l := by
  induction l with
  | nil => simp [insertSorted]
  | cons c l ih =>
    rw [insertSorted]
    split_ifs with hlt heq
    · simp
    · subst heq
      simp
    · simp only [List.mem_cons, ih]
      tauto

theorem pairwise_insertSorted {a : α} {l : List α} (h : l.Pairwise (· < ·)) :
    (insertSorted a l).Pairwise (· < ·) := by
  induction l with
  | nil => simp [insertSorted]
  | cons b l ih =>
    obtain ⟨hb, hl⟩ := List.pairwise_cons.1 h
    rw [insertSorted]
    split_ifs with hlt heq
    · exact List.pairwise_cons.2
        ⟨List.forall_mem_cons.2 ⟨hlt, fun c hc => hlt.trans (hb c hc)⟩, h⟩
    · exact h
    · refine List.pairwise_cons.2 ⟨fun c hc => ?_, ih hl⟩
      rcases mem_insertSorted.1 hc with rfl | hc
      · exact lt_of_le_of_ne (not_lt.1 hlt) (Ne.symm heq)
      · exact hb c hc

/-- An element is put in. -/
def insert (a : α) (s : OrderedSet α) : OrderedSet α :=
  ⟨insertSorted a s.elems, pairwise_insertSorted s.sorted⟩

/-- An element is taken out. -/
def erase (a : α) (s : OrderedSet α) : OrderedSet α :=
  ⟨s.elems.filter (· ≠ a), s.sorted.sublist List.filter_sublist⟩

/-- The least element. -/
def first (s : OrderedSet α) : Option α := s.elems.head?

@[simp] theorem not_mem_empty (a : α) : a ∉ (empty : OrderedSet α) := List.not_mem_nil

@[simp] theorem mem_insert {a b : α} : b ∈ s.insert a ↔ b = a ∨ b ∈ s :=
  mem_insertSorted

@[simp] theorem mem_erase {a b : α} : b ∈ s.erase a ↔ b ∈ s ∧ b ≠ a := by
  simp [mem_def, erase]

end OrderedSet

namespace AList

variable {K V : Type*} (w : V → ℕ)

/-- The weights of all values. -/
def weightSum (t : AList fun _ : K => V) : ℕ := (t.entries.map fun e => w e.2).sum

variable [DecidableEq K] {w}

variable {t : AList fun _ : K => V}

/-- A table is one of its entries and the rest. -/
theorem perm_cons_erase {k : K} {v : V} (h : t.lookup k = some v) :
    t.entries.Perm (⟨k, v⟩ :: (t.erase k).entries) := by
  have hkey : k ∈ t.entries.keys := lookup_isSome.1 (by rw [h]; rfl)
  obtain ⟨found, before, after, -, hents, herase⟩ := List.exists_of_kerase hkey
  have hmem : ⟨k, found⟩ ∈ t.entries := by
    rw [hents]
    exact List.mem_append_right _ List.mem_cons_self
  have hfound : found = v := Option.some.inj ((mem_lookup_iff.2 hmem).symm.trans h)
  show t.entries.Perm (⟨k, v⟩ :: t.entries.kerase k)
  rw [herase, hents, hfound]
  exact List.perm_middle

theorem weightSum_erase {k : K} {v : V} (h : t.lookup k = some v) :
    weightSum w t = w v + weightSum w (t.erase k) := by
  have hsum := ((perm_cons_erase h).map fun e => w e.2).sum_eq
  rwa [List.map_cons] at hsum

theorem weightSum_erase_of_notMem {k : K} (h : k ∉ t) :
    weightSum w (t.erase k) = weightSum w t := by
  have hkeys : k ∉ t.entries.keys := h
  show ((List.kerase k t.entries).map fun e => w e.2).sum = _
  rw [List.kerase_of_notMem_keys hkeys]
  rfl

theorem weightSum_insert (k : K) (v : V) :
    weightSum w (t.insert k v) = w v + weightSum w (t.erase k) := by
  show ((List.kinsert k v t.entries).map fun e => w e.2).sum = _
  rfl

end AList
