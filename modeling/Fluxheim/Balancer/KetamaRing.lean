import Mathlib.Data.List.Rotate
import Fluxheim.Lib.FirstMet
import Fluxheim.Balancer.SelectionRing

/-!
# The backends met on a ring

A lookup goes round the ring of points from the hash of a key on, and collects the backends of the
points, each once.  Distances are clockwise, modulo the number of hashes, so the walk meets the
points in the order of their distances.
-/

namespace Fluxheim.Balancer.NginxKetamaTable

open Ascii List

/-- The distance of a point from a hash, going up and round. -/
def clockwise (hash : UInt32) (point : NginxKetamaPoint) : ℕ := (point.hash - hash).toNat

variable {hash : UInt32} {point a b : NginxKetamaPoint}

theorem clockwise_of_le (h : hash ≤ point.hash) :
    clockwise hash point = point.hash.toNat - hash.toNat :=
  UInt32.toNat_sub_of_le _ _ h

theorem clockwise_of_lt (h : point.hash < hash) :
    clockwise hash point = 2 ^ 32 - hash.toNat + point.hash.toNat := by
  have hlt := UInt32.lt_iff_toNat_lt.1 h
  have hsize := hash.toNat_lt
  rw [clockwise, UInt32.toNat_sub, Nat.mod_eq_of_lt (by omega)]

/-- Points at or after the hash come before those it has passed. -/
theorem clockwise_lt_of_passed (ha : hash ≤ a.hash)
    (hb : b.hash < hash) : clockwise hash a < clockwise hash b := by
  have hsize := a.hash.toNat_lt
  have hhash := hash.toNat_lt
  rw [clockwise_of_le ha, clockwise_of_lt hb]
  omega

/-- On either side of the hash the distances grow with the hashes. -/
theorem clockwise_lt_of_side (hab : a.hash < b.hash)
    (hside : hash ≤ a.hash ∨ b.hash < hash) : clockwise hash a < clockwise hash b := by
  have hlt := UInt32.lt_iff_toNat_lt.1 hab
  rcases hside with ha | hb
  · have hle := UInt32.le_iff_toNat_le.1 ha
    rw [clockwise_of_le ha, clockwise_of_le (UInt32.le_trans ha (UInt32.le_of_lt hab))]
    omega
  · rw [clockwise_of_lt hb, clockwise_of_lt (UInt32.lt_trans hab hb)]
    omega

theorem filterMap_range_getElem? {α : Type*} (l : List α) :
    (List.range l.length).filterMap (fun i => l[i]?) = l := by
  induction l with
  | nil => rfl
  | cons a l ih =>
    rw [length_cons, range_succ_eq_map, filterMap_cons, filterMap_map]
    exact congrArg (a :: ·) ih

theorem filterMap_range_rotate {α : Type*} (l : List α) (n : ℕ) :
    (List.range l.length).filterMap (fun off => l[(n % l.length + off) % l.length]?) =
      l.rotate n := by
  have hget : ∀ off ∈ range l.length,
      l[(n % l.length + off) % l.length]? = (l.rotate n)[off]? := by
    intro off hoff
    rw [getElem?_rotate (mem_range.1 hoff), Nat.mod_add_mod, add_comm]
  rw [filterMap_congr hget]
  conv_lhs => rw [← length_rotate l n]
  exact filterMap_range_getElem? _

section Walk

variable (table : NginxKetamaTable) (hash)

/-- Where the walk begins: the first point at or after the hash. -/
def start : ℕ := table.points.findIdx fun point => hash ≤ point.hash

theorem backendKeys_eq (key : Bytes) (maxI : ℕ) :
    table.backendKeys key maxI =
      (((table.points.rotate (table.start (crc32 key))).map (·.backendKey)).eraseDups).take
        (min (max 1 maxI) table.points.length) := by
  rw [backendKeys, ← start, filterMap_range_rotate, ← FirstMet.collect_eq_take,
    FirstMet.collect, foldl_map]

theorem lt_of_mem_take_start {point : NginxKetamaPoint}
    (h : point ∈ table.points.take (table.start hash)) : point.hash < hash := by
  obtain ⟨i, hi, rfl⟩ := mem_take_iff_getElem.1 h
  have hno := not_of_lt_findIdx (lt_of_lt_of_le hi (min_le_left _ _))
  exact UInt32.not_le.1 (by simpa using hno)

theorem le_of_mem_drop_start {point : NginxKetamaPoint}
    (h : point ∈ table.points.drop (table.start hash)) : hash ≤ point.hash := by
  obtain ⟨i, hi, rfl⟩ := mem_drop_iff_getElem.1 h
  have hlt : table.start hash < table.points.length := by omega
  have hfirst : hash ≤ table.points[table.start hash].hash :=
    of_decide_eq_true (findIdx_getElem (w := hlt))
  rcases eq_zero_or_pos i with rfl | hpos
  · exact hfirst
  · have hless := pairwise_iff_getElem.1 table.increasing _ (table.start hash + i) hlt
      (by omega) (by omega)
    exact UInt32.le_trans hfirst (UInt32.le_of_lt hless)

theorem points_rotate_pairwise :
    (table.points.rotate (table.start hash)).Pairwise fun a b =>
      clockwise hash a < clockwise hash b := by
  have hlen : table.start hash ≤ table.points.length := findIdx_le_length
  rw [rotate_eq_drop_append_take hlen, pairwise_append]
  refine ⟨?_, ?_, fun a ha b hb => ?_⟩
  · -- from the start on all points are at or after the hash
    refine (table.increasing.sublist (drop_sublist _ _)).imp_of_mem fun ha _ hab => ?_
    exact clockwise_lt_of_side hab (Or.inl (table.le_of_mem_drop_start hash ha))
  · -- before it all are below, and are met after the wrap
    refine (table.increasing.sublist (take_sublist _ _)).imp_of_mem fun _ hb hab => ?_
    exact clockwise_lt_of_side hab (Or.inr (table.lt_of_mem_take_start hash hb))
  · exact clockwise_lt_of_passed (table.le_of_mem_drop_start hash ha)
      (table.lt_of_mem_take_start hash hb)

end Walk

variable (table : NginxKetamaTable)

/-- The backends that own a point. -/
def owners : Finset Key := (table.points.map (·.backendKey)).toFinset

/-- The first point of a backend, clockwise from the hash, is before every point of another. -/
def MetBefore (hash : UInt32) (a b : Key) : Prop :=
  ∃ p ∈ table.points, p.backendKey = a ∧
    ∀ q ∈ table.points, q.backendKey = b → clockwise hash p < clockwise hash q

/-- All owners, in the order they are met. -/
def met (hash : UInt32) : List Key :=
  ((table.points.rotate (table.start hash)).map (·.backendKey)).eraseDups

section Met

theorem mem_met {b : Key} : b ∈ table.met hash ↔ b ∈ table.owners := by
  simp [met, owners]

theorem met_pairwise (hash : UInt32) : (table.met hash).Pairwise (table.MetBefore hash) := by
  refine (FirstMet.pairwise_eraseDups _ (table.points_rotate_pairwise hash)).imp fun h => ?_
  simpa [MetBefore, FirstMet.Before] using h

theorem length_met : (table.met hash).length = table.owners.card := by
  rw [met, FirstMet.length_eraseDups]
  congr 1
  ext b
  simp [owners]

theorem card_owners_le : table.owners.card ≤ table.points.length :=
  (toFinset_card_le _).trans (length_map _).le

end Met

/-- **A lookup yields the backends in the order in which their first points are met, each once**:
as many as were asked for, at least one, or all there are. -/
theorem ketama_lookup_clockwise (table : NginxKetamaTable) (key : Bytes) (maxIterations : ℕ) :
    let keys := table.backendKeys key maxIterations
    keys.Nodup ∧ keys.Pairwise (table.MetBefore (crc32 key)) ∧
      (∀ a ∈ keys, a ∈ table.owners) ∧
      (∀ a ∈ keys, ∀ b ∈ table.owners, b ∉ keys → table.MetBefore (crc32 key) a b) ∧
      keys.length = min (max 1 maxIterations) table.owners.card := by
  intro keys
  have hkeys : keys = (table.met (crc32 key)).take
      (min (max 1 maxIterations) table.points.length) := table.backendKeys_eq key maxIterations
  have hord := table.met_pairwise (crc32 key)
  rw [hkeys]
  refine ⟨(FirstMet.nodup_eraseDups _).sublist (take_sublist _ _),
    hord.sublist (take_sublist _ _),
    fun a ha => table.mem_met.1 (mem_of_mem_take ha), fun a ha b hb hnot => ?_, ?_⟩
  · -- an owner that is not yielded is further on in the walk
    rw [← take_append_drop (min (max 1 maxIterations) table.points.length)
      (table.met (crc32 key)), pairwise_append] at hord
    have hb : b ∈ table.met (crc32 key) := table.mem_met.2 hb
    rw [← take_append_drop (min (max 1 maxIterations) table.points.length)
      (table.met (crc32 key)), mem_append] at hb
    exact hord.2.2 a ha b (hb.resolve_left hnot)
  · have hcard := table.card_owners_le
    rw [length_take, length_met]
    omega

/-- Two backends on a ring of three points, from the hash of an empty key, which is zero. -/
example : (⟨[⟨5, 1⟩, ⟨7, 2⟩, ⟨9, 1⟩], by decide⟩ : NginxKetamaTable).backendKeys [] 4 = [1, 2] := by
  decide +kernel

end Fluxheim.Balancer.NginxKetamaTable
