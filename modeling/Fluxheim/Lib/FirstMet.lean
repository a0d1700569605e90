import Mathlib.Data.Finset.Card
import Mathlib.Data.List.Dedup

/-!
# Distinct values in the order they are first met

A scan of a list collects the value of each element unless it has it already or has enough: it is a
prefix of `List.eraseDups`.
-/

namespace FirstMet

open List

variable {α β γ : Type*} [DecidableEq β]

/-- The values of a list, each once and at most `limit` of them, behind those already met. -/
def collect (limit : ℕ) (met : List β) (l : List β) : List β :=
  l.foldl (fun met b => if limit ≤ met.length ∨ b ∈ met then met else met ++ [b]) met

variable {limit : ℕ} {l met : List β}

theorem collect_of_full (h : limit ≤ met.length) : collect limit met l = met := by
  induction l with
  | nil => rfl
  | cons b l ih =>
    rw [collect, foldl_cons, if_pos (Or.inl h)]
    exact ih

theorem collect_eq_take_append (h : met.length ≤ limit) :
    collect limit met l = (met ++ (l.filter (· ∉ met)).eraseDups).take limit := by
  induction l generalizing met with
  | nil => simp [collect, take_of_length_le h]
  | cons b l ih =>
    by_cases hfull : limit ≤ met.length
    · rw [collect_of_full hfull, take_append_of_le_length hfull, take_of_length_le h]
    · by_cases hmem : b ∈ met
      · rw [collect, foldl_cons, if_pos (Or.inr hmem), ← collect, ih h,
          filter_cons_of_neg (by simpa using hmem)]
      · have hroom : (met ++ [b]).length ≤ limit := by
          rw [length_append, length_singleton]
          omega
        have hrest : l.filter (· ∉ met ++ [b]) = (l.filter (· ∉ met)).filter fun c => !c == b := by
          rw [filter_filter]
          refine filter_congr fun c _ => ?_
          simp [and_comm, Bool.beq_eq_decide_eq]
        rw [collect, foldl_cons, if_neg (by simp [hfull, hmem]), ← collect, ih hroom, hrest,
          filter_cons_of_pos (by simpa using hmem), eraseDups_cons, append_assoc,
          singleton_append]

/-- The scan gives the first of the distinct values. -/
theorem collect_eq_take : collect limit [] l = l.eraseDups.take limit := by
  rw [collect_eq_take_append (Nat.zero_le _)]
  simp

theorem nodup_eraseDups (l : List β) : l.eraseDups.Nodup := by
  induction hn : l.length using Nat.strong_induction_on generalizing l with
  | _ n ih =>
    cases l with
    | nil => simp
    | cons b l =>
      have hlen : (l.filter fun c => !c == b).length < n := by
        have := length_filter_le (fun c => !c == b) l
        rw [length_cons] at hn
        omega
      rw [eraseDups_cons, nodup_cons]
      exact ⟨by simp, ih _ hlen _ rfl⟩

theorem length_eraseDups (l : List β) : l.eraseDups.length = l.toFinset.card := by
  rw [← toFinset_card_of_nodup (nodup_eraseDups l)]
  congr 1
  ext b
  simp

/-- An element with the first value is before all that have the second. -/
def Before [LT γ] (place : α → γ) (value : α → β) (l : List α) (a b : β) : Prop :=
  ∃ p ∈ l, value p = a ∧ ∀ q ∈ l, value q = b → place p < place q

theorem ne_of_mem_rest {v : α → β} {p : α} {l : List α} {b : β}
    (h : b ∈ ((l.filter fun q => !v q == v p).map v).eraseDups) : b ≠ v p := by
  obtain ⟨q, hq, rfl⟩ := mem_map.1 (mem_eraseDups.1 h)
  simpa using (mem_filter.1 hq).2

theorem pairwise_eraseDups [Preorder γ] {place : α → γ} {value : α → β} (l : List α)
    (h : l.Pairwise fun p q => place p < place q) :
    (l.map value).eraseDups.Pairwise (Before place value l) := by
  induction hn : l.length using Nat.strong_induction_on generalizing l with
  | _ n ih =>
    cases l with
    | nil => simp
    | cons p l =>
      obtain ⟨hp, hl⟩ := pairwise_cons.1 h
      have hlen : (l.filter fun q => !value q == value p).length < n := by
        have := length_filter_le (fun q => !value q == value p) l
        rw [length_cons] at hn
        omega
      have hrest : (l.map value).filter (fun c => !c == value p) =
          (l.filter fun q => !value q == value p).map value := by
        rw [filter_map]
        rfl
      rw [map_cons, eraseDups_cons, hrest, pairwise_cons]
      refine ⟨fun b hb => ⟨p, mem_cons_self, rfl, fun q hq hqb => ?_⟩, ?_⟩
      · -- the value of the first element does not come again
        rcases mem_cons.1 hq with rfl | hq
        · exact absurd hqb.symm (ne_of_mem_rest hb)
        · exact hp q hq
      · refine (ih _ hlen _ (hl.filter _) rfl).imp_of_mem fun ha hb hab => ?_
        obtain ⟨q, hq, rfl, hpre⟩ := hab
        refine ⟨q, mem_cons_of_mem _ (mem_of_mem_filter hq), rfl, fun r hr hrb => ?_⟩
        rcases mem_cons.1 hr with rfl | hr
        · exact absurd hrb.symm (ne_of_mem_rest hb)
        · exact hpre r (mem_filter.2 ⟨hr, by simpa [hrb] using ne_of_mem_rest hb⟩) hrb

end FirstMet
