import Mathlib.Data.List.Sort
import Mathlib.Order.Interval.Finset.Nat
import Mathlib.Tactic

/-!
# Sets of numbers as lists of spans

A finite set of numbers that comes in long stretches is kept as a list of spans `offset, len`.
-/

/-- The numbers from `offset` on, `len` of them. -/
structure Span where
  offset : ℕ
  len : ℕ
  deriving DecidableEq

namespace Span

/-- The first number after the span. -/
def stop (s : Span) : ℕ := s.offset + s.len

/-- The numbers of a span. -/
def points (s : Span) : Finset ℕ := Finset.Ico s.offset s.stop

theorem mem_points {s : Span} {x : ℕ} : x ∈ s.points ↔ s.offset ≤ x ∧ x < s.stop :=
  Finset.mem_Ico

theorem card_points (s : Span) : s.points.card = s.len := by
  rw [points, Nat.card_Ico, stop, Nat.add_sub_cancel_left]

end Span

namespace Spans

open Span

/-- The numbers of a list of spans. -/
def points : List Span → Finset ℕ
  | [] => ∅
  | s :: l => s.points ∪ points l

@[simp] theorem points_nil : points [] = ∅ := rfl

@[simp] theorem points_cons (s : Span) (l : List Span) :
    points (s :: l) = s.points ∪ points l := rfl

variable {before after : List Span} {l : List Span} {s : Span}

theorem mem_points {x : ℕ} : x ∈ points l ↔ ∃ s ∈ l, x ∈ s.points := by
  induction l with
  | nil => simp
  | cons s l ih => simp [ih]

@[simp] theorem points_append (l m : List Span) : points (l ++ m) = points l ∪ points m := by
  ext x
  simp only [mem_points, List.mem_append, Finset.mem_union, or_and_right, exists_or]

theorem points_perm {l m : List Span} (h : l.Perm m) : points l = points m := by
  ext x
  simp only [mem_points, h.mem_iff]

/-- Not empty, in order, and with gaps, so that the list is determined by its numbers. -/
structure Canonical (l : List Span) : Prop where
  pos : ∀ s ∈ l, 0 < s.len
  gaps : l.Pairwise fun a b => a.stop < b.offset

theorem canonical_nil : Canonical [] := ⟨by simp, List.Pairwise.nil⟩

theorem canonical_singleton (h : 0 < s.len) : Canonical [s] :=
  ⟨by simpa using h, List.pairwise_singleton _ _⟩

theorem Canonical.sublist {l m : List Span} (h : Canonical l) (hsub : m.Sublist l) : Canonical m :=
  ⟨fun s hs => h.pos s (hsub.subset hs), h.gaps.sublist hsub⟩

/-- A span between two parts of a list. -/
theorem canonical_middle :
    Canonical (before ++ s :: after) ↔
      Canonical (before ++ after) ∧ 0 < s.len ∧ (∀ a ∈ before, a.stop < s.offset) ∧
        ∀ b ∈ after, s.stop < b.offset := by
  constructor
  · intro h
    have hgaps := List.pairwise_append.1 h.gaps
    refine ⟨h.sublist ((List.sublist_cons_self s after).append_left before),
      h.pos s (by simp), fun a ha => hgaps.2.2 a ha s List.mem_cons_self,
      (List.pairwise_cons.1 hgaps.2.1).1⟩
  · rintro ⟨h, hpos, hpre, hafter⟩
    have hgaps := List.pairwise_append.1 h.gaps
    refine ⟨fun a ha => ?_, List.pairwise_append.2
      ⟨hgaps.1, List.pairwise_cons.2 ⟨hafter, hgaps.2.1⟩, fun a ha b hb => ?_⟩⟩
    · rcases List.mem_append.1 ha with ha | ha
      · exact h.pos a (List.mem_append_left _ ha)
      · rcases List.mem_cons.1 ha with rfl | ha
        · exact hpos
        · exact h.pos a (List.mem_append_right _ ha)
    · rcases List.mem_cons.1 hb with rfl | hb
      · exact hpre a ha
      · exact hgaps.2.2 a ha b hb

/-- The spans of a canonical list have no number in common. -/
theorem Canonical.disjoint (h : Canonical l) :
    l.Pairwise fun a b => Disjoint a.points b.points := by
  refine h.gaps.imp fun {a b} hlt => Finset.disjoint_left.2 fun x ha hb => ?_
  rw [Span.mem_points] at ha hb
  omega

theorem Canonical.eq_nil (h : Canonical l) (hempty : points l = ∅) : l = [] := by
  cases l with
  | nil => rfl
  | cons s l =>
    have hs : s.offset ∈ points (s :: l) := by
      rw [points_cons, Finset.mem_union, Span.mem_points]
      exact Or.inl ⟨le_rfl, Nat.lt_add_of_pos_right (h.pos s List.mem_cons_self)⟩
    rw [hempty] at hs
    exact absurd hs (Finset.notMem_empty _)

/-- No span reaches further than the numbers of the list. -/
theorem stop_le_of_points_subset {n : ℕ} (hpos : ∀ s ∈ l, 0 < s.len)
    (h : points l ⊆ Finset.range n) (hs : s ∈ l) : s.stop ≤ n := by
  have hlen := hpos s hs
  have hlast : s.stop - 1 ∈ s.points := by
    rw [Span.mem_points, stop]
    omega
  have hn := Finset.mem_range.1 (h (mem_points.2 ⟨s, hs, hlast⟩))
  omega

/-- Spans in the order of their offsets, with those run together that touch.  The spans that are
done come first, the last of them at the head. -/
def merge : List Span → List Span → List Span
  | merged, [] => merged.reverse
  | [], s :: rest => merge [s] rest
  | last :: merged, s :: rest =>
    if s.offset ≤ last.stop then
      merge (⟨last.offset, max (s.stop - last.offset) last.len⟩ :: merged) rest
    else merge (s :: last :: merged) rest

/-- The order in which spans are kept. -/
def offsetLe (a b : Span) : Prop := a.offset ≤ b.offset

instance : DecidableRel offsetLe := fun a b => inferInstanceAs (Decidable (a.offset ≤ b.offset))

instance : Std.Total offsetLe := ⟨fun a b => Nat.le_total a.offset b.offset⟩

instance : IsTrans Span offsetLe := ⟨fun _ _ _ => Nat.le_trans⟩

/-- A span is put in by sorting and running together what touches. -/
def insert (s : Span) (l : List Span) : List Span :=
  merge [] ((l ++ [s]).insertionSort offsetLe)

/-- Two spans that touch are one. -/
theorem points_join {a b : Span} (hle : a.offset ≤ b.offset) (htouch : b.offset ≤ a.stop) :
    (⟨a.offset, max (b.stop - a.offset) a.len⟩ : Span).points = a.points ∪ b.points := by
  ext x
  simp only [Finset.mem_union, Span.mem_points, stop] at *
  omega

theorem points_merge {merged rest : List Span} (hsorted : rest.Pairwise offsetLe)
    (hlast : ∀ last ∈ merged.head?, ∀ s ∈ rest, last.offset ≤ s.offset) :
    points (merge merged rest) = points merged ∪ points rest := by
  induction rest generalizing merged with
  | nil =>
    rw [merge, points_perm (List.reverse_perm merged)]
    simp
  | cons s rest ih =>
    obtain ⟨hfirst, hsorted⟩ := List.pairwise_cons.1 hsorted
    cases merged with
    | nil =>
      rw [merge, ih hsorted (by simpa [offsetLe] using hfirst)]
      simp
    | cons last merged =>
      have hle : last.offset ≤ s.offset := hlast last rfl s List.mem_cons_self
      rw [merge]
      split_ifs with htouch
      · rw [ih hsorted, points_cons, points_join hle htouch]
        · ext x
          simp only [points_cons, Finset.mem_union]
          tauto
        · intro joined hjoin t ht
          obtain rfl := Option.some.inj hjoin
          exact hle.trans (hfirst t ht)
      · rw [ih hsorted (by simpa [offsetLe] using hfirst)]
        ext x
        simp only [points_cons, Finset.mem_union]
        tauto

theorem canonical_merge {merged rest : List Span} (hmerge : Canonical merged.reverse)
    (hpos : ∀ s ∈ rest, 0 < s.len) : Canonical (merge merged rest) := by
  induction rest generalizing merged with
  | nil => rwa [merge]
  | cons s rest ih =>
    rw [List.forall_mem_cons] at hpos
    cases merged with
    | nil =>
      exact ih (canonical_singleton hpos.1) hpos.2
    | cons last merged =>
      rw [List.reverse_cons, canonical_middle, List.append_nil] at hmerge
      obtain ⟨hdone, hlen, hgap, -⟩ := hmerge
      rw [merge]
      split_ifs with htouch
      · refine ih ?_ hpos.2
        rw [List.reverse_cons, canonical_middle, List.append_nil]
        exact ⟨hdone, lt_max_of_lt_right hlen, hgap, by simp⟩
      · refine ih ?_ hpos.2
        rw [List.reverse_cons, List.reverse_cons, canonical_middle, List.append_nil,
          canonical_middle, List.append_nil]
        refine ⟨⟨hdone, hlen, hgap, by simp⟩, hpos.1, fun a ha => ?_, by simp⟩
        have hlast := not_le.1 htouch
        rcases List.mem_append.1 ha with ha | ha
        · have := hgap a ha
          rw [stop] at hlast
          omega
        · rwa [List.mem_singleton.1 ha]

theorem points_insert (s : Span) (l : List Span) : points (insert s l) = points l ∪ s.points := by
  rw [insert, points_merge (List.pairwise_insertionSort _ _) (by simp),
    points_perm (List.perm_insertionSort _ _)]
  simp

theorem canonical_insert (hs : 0 < s.len) (hl : ∀ a ∈ l, 0 < a.len) : Canonical (insert s l) := by
  refine canonical_merge canonical_nil fun a ha => ?_
  rw [List.mem_insertionSort, List.mem_append, List.mem_singleton] at ha
  rcases ha with ha | rfl
  · exact hl a ha
  · exact hs

/-- A whole span is taken out. -/
theorem Canonical.erase (h : Canonical (before ++ s :: after)) :
    Canonical (before ++ after) ∧
      Disjoint s.points (points (before ++ after)) ∧
      points (before ++ s :: after) = points (before ++ after) ∪ s.points := by
  obtain ⟨hrest, -, hpre, hafter⟩ := canonical_middle.1 h
  refine ⟨hrest, Finset.disjoint_left.2 fun x hx hother => ?_, ?_⟩
  · obtain ⟨a, ha, hxa⟩ := mem_points.1 hother
    rw [Span.mem_points] at hx hxa
    rcases List.mem_append.1 ha with ha | ha
    · have := hpre a ha
      omega
    · have := hafter a ha
      omega
  · ext x
    simp only [points_append, points_cons, Finset.mem_union]
    tauto

/-- The front of a span is taken out. -/
theorem Canonical.shrink (h : Canonical (before ++ s :: after)) {n : ℕ} (hn : n < s.len) :
    Canonical (before ++ ⟨s.offset + n, s.len - n⟩ :: after) ∧
      Disjoint (⟨s.offset, n⟩ : Span).points
        (points (before ++ ⟨s.offset + n, s.len - n⟩ :: after)) ∧
      points (before ++ s :: after) =
        points (before ++ ⟨s.offset + n, s.len - n⟩ :: after) ∪ (⟨s.offset, n⟩ : Span).points := by
  obtain ⟨hrest, -, hpre, hafter⟩ := canonical_middle.1 h
  have hstop : (⟨s.offset + n, s.len - n⟩ : Span).stop = s.stop := by
    simp only [stop]
    omega
  have hsplit : s.points = (⟨s.offset + n, s.len - n⟩ : Span).points ∪
      (⟨s.offset, n⟩ : Span).points := by
    ext x
    simp only [Finset.mem_union, Span.mem_points, hstop]
    simp only [stop]
    omega
  refine ⟨canonical_middle.2 ⟨hrest, Nat.sub_pos_of_lt hn, fun a ha => ?_, fun b hb => ?_⟩,
    Finset.disjoint_left.2 fun x hx hother => ?_, ?_⟩
  · exact (hpre a ha).trans_le (Nat.le_add_right _ _)
  · rw [hstop]
    exact hafter b hb
  · have hxs : x ∈ s.points := by
      rw [hsplit]
      exact Finset.mem_union_right _ hx
    obtain ⟨a, ha, hxa⟩ := mem_points.1 hother
    rw [Span.mem_points] at hx hxa hxs
    rcases List.mem_append.1 ha with ha | ha
    · have := hpre a ha
      omega
    · rcases List.mem_cons.1 ha with rfl | ha
      · simp only [stop] at hx hxa
        omega
      · have := hafter a ha
        omega
  · ext x
    simp only [points_append, points_cons, Finset.mem_union, hsplit]
    tauto

/-- The list without the first `n` numbers of one of its spans. -/
def takeFront (before : List Span) (s : Span) (after : List Span) (n : ℕ) : List Span :=
  if s.len = n then before ++ after else before ++ ⟨s.offset + n, s.len - n⟩ :: after

theorem Canonical.takeFront (h : Canonical (before ++ s :: after)) {n : ℕ} (hn : n ≤ s.len) :
    Canonical (takeFront before s after n) ∧
      Disjoint (⟨s.offset, n⟩ : Span).points (points (Spans.takeFront before s after n)) ∧
      points (before ++ s :: after) =
        points (Spans.takeFront before s after n) ∪ (⟨s.offset, n⟩ : Span).points := by
  rw [Spans.takeFront]
  split_ifs with hlen
  · subst hlen
    exact h.erase
  · exact h.shrink (lt_of_le_of_ne hn (Ne.symm hlen))

/-- The sum of the lengths. -/
def total (l : List Span) : ℕ := (l.map (·.len)).sum

theorem total_eq_card (h : l.Pairwise fun a b => Disjoint a.points b.points) :
    total l = (points l).card := by
  induction l with
  | nil => rfl
  | cons s l ih =>
    obtain ⟨hs, hl⟩ := List.pairwise_cons.1 h
    have hdisj : Disjoint s.points (points l) := by
      refine Finset.disjoint_left.2 fun x hx hother => ?_
      obtain ⟨a, ha, hxa⟩ := mem_points.1 hother
      exact Finset.disjoint_left.1 (hs a ha) hx hxa
    rw [points_cons, Finset.card_union_of_disjoint hdisj, card_points, ← ih hl]
    rfl

end Spans
