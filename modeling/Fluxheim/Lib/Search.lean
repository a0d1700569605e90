import Mathlib.Data.List.Basic
import Mathlib.Data.List.TakeWhile
import Mathlib.Tactic

/-!
# Searching and splitting lists

The lemmas say how a search behaves when the list is extended on the right (what is found stays
found) and how it is resumed where an earlier search gave up.
-/

namespace Search

open List Option

variable {α : Type*}

/-- Put `x` in front of the first piece. -/
def consHead (x : α) : List (List α) → List (List α)
  | [] => [[x]]
  | l :: ls => (x :: l) :: ls

@[simp] theorem consHead_ne_nil (x : α) (ls : List (List α)) : consHead x ls ≠ [] := by
  cases ls <;> simp [consHead]

/-- Lines, each followed by the separator `a b`. -/
def joinLines (a b : α) (ls : List (List α)) : List α := (ls.map (· ++ [a, b])).flatten

theorem joinLines_cons (a b : α) (l : List α) (ls : List (List α)) :
    joinLines a b (l :: ls) = l ++ a :: b :: joinLines a b ls := by
  simp [joinLines]

theorem intercalate_joinLines (a b : α) (ls : List (List α)) :
    [a, b].intercalate (ls ++ [[], []]) = joinLines a b ls ++ [a, b] := by
  induction ls with
  | nil => rfl
  | cons l ls ih =>
    have hcons : ∀ {m : List (List α)}, m ≠ [] →
        [a, b].intercalate (l :: m) = l ++ a :: b :: [a, b].intercalate m := by
      intro m hm
      obtain ⟨k, m, rfl⟩ := exists_cons_of_ne_nil hm
      simp [intercalate]
    rw [cons_append, hcons (by simp), ih, joinLines_cons]
    simp

variable {ls : List (List α)} {a b : α} {i : ℕ} {l : List α} {x : List α}

theorem mem_of_mem_intercalate {s : List α} {b : α}
    (h : b ∈ s.intercalate ls) : b ∈ s ∨ ∃ l ∈ ls, b ∈ l := by
  induction ls with
  | nil => simp at h
  | cons l ls ih =>
    cases ls with
    | nil => exact Or.inr ⟨l, mem_cons_self, by simpa using h⟩
    | cons l' ls =>
      rw [intercalate_cons_cons, mem_append, mem_append] at h
      rcases h with (h | h) | h
      · exact Or.inr ⟨l, mem_cons_self, h⟩
      · exact Or.inl h
      · rcases ih h with h | ⟨m, hm, h⟩
        · exact Or.inl h
        · exact Or.inr ⟨m, mem_cons_of_mem _ hm, h⟩

variable [DecidableEq α]

/-- The first position at which `p` occurs. -/
def findSub (p : List α) : List α → Option ℕ
  | [] => if p.isPrefixOf [] then some 0 else none
  | a :: x => if p.isPrefixOf (a :: x) then some 0 else (findSub p x).map (· + 1)

theorem findSub_eq_some_iff {p x : List α} :
    findSub p x = some i ↔ p <+: x.drop i ∧ i ≤ x.length ∧ ∀ j < i, ¬ p <+: x.drop j := by
  induction x generalizing i with
  | nil =>
    rw [findSub]
    split_ifs with h
    · have hp : p = [] := by simpa using h
      subst hp
      simp only [some.injEq, nil_prefix, drop_nil, length_nil, not_true_eq_false, true_and]
      constructor
      · rintro rfl; simp
      · rintro ⟨h, -⟩; omega
    · have hp : ¬ p <+: [] := by simpa using h
      simp [hp]
  | cons a x ih =>
    rw [findSub]
    split_ifs with h
    · have hp : p <+: a :: x := by simpa using h
      constructor
      · rintro ⟨⟩; simpa using hp
      · rintro ⟨-, -, hj⟩
        cases i with
        | zero => rfl
        | succ i => exact absurd hp (hj 0 (by omega))
    · have hp : ¬ p <+: a :: x := by simpa using h
      cases i with
      | zero => simp [hp]
      | succ i =>
        rw [map_eq_some_iff]
        simp only [add_right_cancel_iff, exists_eq_right, ih, drop_succ_cons,
          length_cons, add_le_add_iff_right]
        refine and_congr_right fun _ => and_congr_right fun _ =>
          ⟨fun hj j hlt => ?_, fun hj j hlt => ?_⟩
        · cases j with
          | zero => exact hp
          | succ j => exact hj j (by omega)
        · exact hj (j + 1) (by omega)

theorem findSub_eq_none_iff {p x : List α} :
    findSub p x = none ↔ ∀ j ≤ x.length, ¬ p <+: x.drop j := by
  constructor
  · intro h j hj hp
    classical
    have hex : ∃ j, p <+: x.drop j := ⟨j, hp⟩
    have : findSub p x = some (Nat.find hex) := findSub_eq_some_iff.2
      ⟨Nat.find_spec hex, le_trans (Nat.find_min' hex hp) hj, fun k hk => Nat.find_min hex hk⟩
    rw [h] at this
    cases this
  · intro h
    cases hf : findSub p x with
    | none => rfl
    | some i =>
      obtain ⟨hp, hi, -⟩ := findSub_eq_some_iff.1 hf
      exact absurd hp (h i hi)

/-- What was found lies inside the list. -/
theorem findSub_add_length_le {p x : List α} (h : findSub p x = some i) :
    i + p.length ≤ x.length := by
  obtain ⟨hp, hi, -⟩ := findSub_eq_some_iff.1 h
  have := hp.length_le
  rw [length_drop] at this
  omega

/-- The list around what was found. -/
theorem take_append_drop_of_findSub {p x : List α} (h : findSub p x = some i) :
    x.take i ++ p ++ x.drop (i + p.length) = x := by
  obtain ⟨⟨t, ht⟩, -, -⟩ := findSub_eq_some_iff.1 h
  have hd : x.drop (i + p.length) = t := by
    rw [← drop_drop, ← ht, drop_left]
  rw [hd, append_assoc, ht, take_append_drop]

/-- What is found in a list is found in every extension of it. -/
theorem findSub_append {p x : List α} (h : findSub p x = some i) (t : List α) :
    findSub p (x ++ t) = some i := by
  obtain ⟨hp, hi, hj⟩ := findSub_eq_some_iff.1 h
  have hle := findSub_add_length_le h
  rw [findSub_eq_some_iff]
  refine ⟨?_, by simp; omega, fun j hlt hpj => hj j hlt ?_⟩
  · rw [drop_append_of_le_length hi]
    exact hp.trans (prefix_append _ _)
  · rw [drop_append_of_le_length (by omega)] at hpj
    apply prefix_of_prefix_length_le hpj (prefix_append _ _)
    rw [length_drop]
    omega

/-- A search that found nothing is resumed where the pattern can still begin. -/
theorem findSub_append_of_none {p x : List α} (h : findSub p x = none) (hp : p ≠ []) (t : List α)
    {k : ℕ} (hk : k + p.length ≤ x.length + 1) :
    findSub p (x ++ t) = (findSub p ((x ++ t).drop k)).map (· + k) := by
  have hpos : 0 < p.length := length_pos_iff.2 hp
  have hnone := findSub_eq_none_iff.1 h
  -- no occurrence begins before `k`: it would lie inside `x`
  have hpre : ∀ j < k, ¬ p <+: (x ++ t).drop j := by
    intro j hj hpj
    rw [drop_append_of_le_length (by omega)] at hpj
    refine hnone j (by omega) (prefix_of_prefix_length_le hpj (prefix_append _ _) ?_)
    rw [length_drop]
    omega
  cases hf : findSub p ((x ++ t).drop k) with
  | none =>
    rw [findSub_eq_none_iff] at hf
    rw [map_none, findSub_eq_none_iff]
    intro j hj
    by_cases hjk : j < k
    · exact hpre j hjk
    · have := hf (j - k) (by simp at *; omega)
      rwa [drop_drop, show k + (j - k) = j by omega] at this
  | some i =>
    obtain ⟨hpi, hi, hj⟩ := findSub_eq_some_iff.1 hf
    rw [map_some, findSub_eq_some_iff]
    rw [drop_drop] at hpi
    refine ⟨by rwa [add_comm], by simp at *; omega, fun j hlt => ?_⟩
    by_cases hjk : j < k
    · exact hpre j hjk
    · have := hj (j - k) (by omega)
      rwa [drop_drop, show k + (j - k) = j by omega] at this

/-- If the first element of the pattern does not occur in `l`, the search passes over `l`. -/
theorem findSub_append_left {a : α} {p l : List α} (hl : a ∉ l) (x : List α) :
    findSub (a :: p) (l ++ x) = (findSub (a :: p) x).map (· + l.length) := by
  induction l with
  | nil => simp
  | cons b l ih =>
    have hb : ¬ (a :: p).isPrefixOf (b :: (l ++ x)) := by
      rw [List.isPrefixOf_iff_prefix, cons_prefix_cons]
      rintro ⟨rfl, -⟩
      exact hl (by simp)
    rw [cons_append, findSub, if_neg hb, ih (fun h => hl (by simp [h])), Option.map_map]
    congr 1

theorem findSub_self_append (p x : List α) : findSub p (p ++ x) = some 0 := by
  rw [findSub_eq_some_iff]
  simp

/-! ### Cutting at a separator of two elements -/

/-- The pieces of a list between the occurrences of the separator `a b`. -/
def splitPair (a b : α) : List α → List (List α)
  | [] => [[]]
  | [x] => [[x]]
  | x :: y :: l =>
    if x = a ∧ y = b then [] :: splitPair a b l else consHead x (splitPair a b (y :: l))

theorem splitPair_ne_nil (a b : α) (x : List α) : splitPair a b x ≠ [] := by
  fun_induction splitPair a b x with
  | case1 => simp
  | case2 => simp
  | case3 => simp
  | case4 => simp

/-- A list that does not begin with the separator gives its head to the first piece. -/
theorem splitPair_cons {a b x : α} (h : ¬ [a, b] <+: x :: l) :
    splitPair a b (x :: l) = consHead x (splitPair a b l) := by
  cases l with
  | nil => rfl
  | cons y l =>
    rw [splitPair, if_neg]
    rintro ⟨rfl, rfl⟩
    exact h ⟨l, rfl⟩

@[simp] theorem splitPair_separator (a b : α) (l : List α) :
    splitPair a b (a :: b :: l) = [] :: splitPair a b l := by
  rw [splitPair, if_pos ⟨rfl, rfl⟩]

/-- A piece without the first element of the separator, up to the next separator. -/
theorem splitPair_append (hl : a ∉ l) (x : List α) :
    splitPair a b (l ++ a :: b :: x) = l :: splitPair a b x := by
  induction l with
  | nil => simp
  | cons c l ih =>
    have hc : ¬ [a, b] <+: c :: (l ++ a :: b :: x) := by
      rw [cons_prefix_cons]
      rintro ⟨rfl, -⟩
      exact hl (by simp)
    rw [cons_append, splitPair_cons hc, ih (fun h => hl (by simp [h])), consHead]

/-- If the separator occurs twice in a row at `i` and nowhere before, the pieces up to there are
those of a first line, of lines that are not empty, and the blank line at the end. -/
theorem splitPair_take_of_findSub (hab : a ≠ b) (h : findSub [a, b, a, b] x = some i) :
    ∃ l ls, splitPair a b (x.take (i + 4)) = l :: (ls ++ [[], []]) ∧ (∀ m ∈ ls, m ≠ []) ∧
      (l = [] ↔ [a, b] <+: x) := by
  induction x using twoStepInduction generalizing i with
  | nil => simp [findSub] at h
  | singleton c =>
    have := findSub_add_length_le h
    simp at this
  | cons_cons c d x ih1 ih2 =>
    have hfound := findSub_eq_some_iff.1 h
    by_cases hsep : c = a ∧ d = b
    · obtain ⟨rfl, rfl⟩ := hsep
      by_cases hsep2 : [c, d] <+: x
      · -- the blank line is here
        obtain ⟨t, rfl⟩ := hsep2
        have hi : i = 0 := by
          by_contra hi
          exact hfound.2.2 0 (by omega) ⟨t, rfl⟩
        subst hi
        exact ⟨[], [], by simp [splitPair], by simp, by simp⟩
      · -- a separator in the middle: the next line is not empty
        have hx : ∃ j, findSub [c, d, c, d] x = some j ∧ i = j + 2 := by
          rw [findSub, if_neg (by
            rw [List.isPrefixOf_iff_prefix]
            rintro ⟨t, ht⟩
            exact hsep2 ⟨t, by simpa using ht⟩)] at h
          obtain ⟨j, hj, rfl⟩ := map_eq_some_iff.1 h
          rw [findSub, if_neg (by
            rw [List.isPrefixOf_iff_prefix, cons_prefix_cons]
            rintro ⟨rfl, -⟩
            exact hab rfl)] at hj
          obtain ⟨k, hk, rfl⟩ := map_eq_some_iff.1 hj
          exact ⟨k, hk, rfl⟩
        obtain ⟨j, hj, rfl⟩ := hx
        obtain ⟨l, ls, hl, hls, hl0⟩ := ih1 hj
        refine ⟨[], l :: ls, ?_, ?_, by simp⟩
        · rw [take_succ_cons, take_succ_cons, splitPair_separator, hl]
          rfl
        · exact forall_mem_cons.2 ⟨fun h0 => hsep2 (hl0.1 h0), hls⟩
    · have hne : ¬ [a, b] <+: c :: d :: x := by
        rintro ⟨t, ht⟩
        simp only [cons_append, nil_append, cons.injEq] at ht
        exact hsep ⟨ht.1.symm, ht.2.1.symm⟩
      rw [findSub, if_neg (by
        rw [List.isPrefixOf_iff_prefix]
        rintro ⟨t, ht⟩
        exact hne ⟨_, ht⟩)] at h
      obtain ⟨j, hj, rfl⟩ := map_eq_some_iff.1 h
      obtain ⟨l, ls, hl, hls, -⟩ := ih2 d hj
      refine ⟨c :: l, ls, ?_, hls, by simp [hne]⟩
      rw [take_succ_cons]
      have hne' : ¬ [a, b] <+: c :: (d :: x).take (j + 4) := fun hp =>
        hne (hp.trans (by rw [← take_succ_cons]; exact take_prefix _ _))
      rw [splitPair_cons hne', hl, consHead]

/-- Joining the pieces again with the separator gives the list back. -/
theorem intercalate_splitPair (a b : α) (x : List α) :
    [a, b].intercalate (splitPair a b x) = x := by
  fun_induction splitPair a b x with
  | case1 => rfl
  | case2 x => simp [intercalate]
  | case3 x y l h ih =>
    obtain ⟨rfl, rfl⟩ := h
    cases hs : splitPair x y l with
    | nil => exact absurd hs (splitPair_ne_nil _ _ _)
    | cons m ms =>
      rw [hs] at ih
      rw [← ih]
      simp [intercalate]
  | case4 x y l h ih =>
    cases hs : splitPair a b (y :: l) with
    | nil => exact absurd hs (splitPair_ne_nil _ _ _)
    | cons m ms =>
      rw [hs] at ih
      rw [← ih]
      cases ms <;> simp [intercalate, consHead]

theorem splitPair_joinLines (h : ∀ l ∈ ls, a ∉ l) (x : List α) :
    splitPair a b (joinLines a b ls ++ x) = ls ++ splitPair a b x := by
  induction ls with
  | nil => rfl
  | cons l ls ih =>
    rw [forall_mem_cons] at h
    rw [joinLines_cons, append_assoc, cons_append, cons_append,
      splitPair_append h.1, ih h.2, cons_append]

/-- The first empty line after nonempty lines is the one at their end. -/
theorem findSub_joinLines (hab : a ≠ b) (hl : a ∉ l) (h : ∀ m ∈ ls, a ∉ m ∧ m ≠ []) (t : List α) :
    findSub [a, b, a, b] (joinLines a b (l :: ls) ++ a :: b :: t) =
      some ((joinLines a b (l :: ls)).length - 2) := by
  induction ls generalizing l with
  | nil =>
    rw [joinLines_cons, append_assoc, findSub_append_left hl]
    have hself : findSub [a, b, a, b] (a :: b :: joinLines a b [] ++ a :: b :: t) = some 0 :=
      findSub_self_append [a, b, a, b] t
    rw [hself]
    simp [joinLines]
  | cons m ls ih =>
    rw [forall_mem_cons] at h
    obtain ⟨⟨hm, hne⟩, hls⟩ := h
    have hrest := ih hm hls
    obtain ⟨c, m, rfl⟩ := exists_cons_of_ne_nil hne
    have hca : a ≠ c := fun hac => hm (by simp [hac])
    have hlen : 2 ≤ (joinLines a b ((c :: m) :: ls)).length := by
      rw [joinLines_cons]
      simp only [length_append, length_cons]
      omega
    rw [joinLines_cons a b l, append_assoc, findSub_append_left hl]
    -- neither the line end nor its second half begins the pattern
    have hskip : findSub [a, b, a, b]
        (a :: b :: joinLines a b ((c :: m) :: ls) ++ a :: b :: t) =
          (findSub [a, b, a, b] (joinLines a b ((c :: m) :: ls) ++ a :: b :: t)).map (· + 2) := by
      rw [joinLines_cons]
      simp [findSub, List.isPrefixOf, hab, hca, Function.comp_def]
    rw [hskip, hrest]
    simp only [map_some, length_append, length_cons]
    congr 1
    omega

section Scan

variable {β : Type*} {p : β → Bool}

/-- Scanning stops where it has to. -/
theorem takeWhile_append_of_stop {l r : List β} (hl : ∀ a ∈ l, p a = true)
    (hr : ∀ a ∈ r.head?, p a = false) : (l ++ r).takeWhile p = l := by
  rw [takeWhile_append_of_pos hl]
  cases r with
  | nil => simp
  | cons a r => simp [hr a (by simp)]

theorem drop_length_takeWhile (p : β → Bool) (x : List β) :
    x.drop (x.takeWhile p).length = x.dropWhile p := by
  induction x with
  | nil => rfl
  | cons a x ih => by_cases ha : p a <;> simp [ha, ih]

theorem head?_dropWhile_eq_false {x : List β} {a : β} (ha : a ∈ (x.dropWhile p).head?) :
    p a = false := by
  have := head?_dropWhile_not p x
  rw [mem_def.1 ha] at this
  simpa using this

end Scan

/-- The parts before and after the first occurrence of `a`. -/
def splitOnce (a : α) (x : List α) : Option (List α × List α) :=
  match x.dropWhile (· ≠ a) with
  | [] => none
  | _ :: r => some (x.takeWhile (· ≠ a), r)

theorem splitOnce_eq_some_iff {a : α} {x l r : List α} :
    splitOnce a x = some (l, r) ↔ x = l ++ a :: r ∧ a ∉ l := by
  have hx := takeWhile_append_dropWhile (p := (· ≠ a)) (l := x)
  have hmem : a ∉ x.takeWhile (· ≠ a) := fun h => by simpa using mem_takeWhile_imp h
  unfold splitOnce
  cases hd : x.dropWhile (· ≠ a) with
  | nil =>
    rw [hd, append_nil] at hx
    simp only [reduceCtorEq, false_iff, not_and]
    rintro rfl h
    rw [hx] at hmem
    simp at hmem
  | cons c t =>
    have hc : c = a := by
      have := head?_dropWhile_not (· ≠ a) x
      rw [hd] at this
      simpa using this
    subst hc
    rw [hd] at hx
    simp only [some.injEq, Prod.mk.injEq]
    constructor
    · rintro ⟨rfl, rfl⟩
      exact ⟨hx.symm, hmem⟩
    · rintro ⟨rfl, hl⟩
      have h1 : (l ++ c :: r).takeWhile (· ≠ c) = l := by
        rw [takeWhile_append_of_pos (fun b hb => by
          simp only [ne_eq, decide_eq_true_eq]; rintro rfl; exact hl hb)]
        simp
      rw [h1] at hx
      exact ⟨h1, by simpa using hx⟩

theorem splitOnce_eq_none_iff {a : α} : splitOnce a x = none ↔ a ∉ x := by
  have hnil : x.dropWhile (· ≠ a) = [] ↔ a ∉ x := by
    rw [dropWhile_eq_nil_iff]
    constructor
    · intro h hmem
      simpa using h a hmem
    · rintro h b hb
      simp only [ne_eq, decide_eq_true_eq]
      rintro rfl
      exact h hb
  rw [← hnil, splitOnce]
  cases x.dropWhile (· ≠ a) <;> simp

theorem splitOn_cons_self (a : α) (x : List α) : (a :: x).splitOn a = [] :: x.splitOn a := by
  rw [splitOn_cons_eq_if_modifyHead, if_pos (by simp)]

/-- The parts have the elements of the list but the separator. -/
theorem mem_of_mem_splitOn {a : α} {x l : List α} (h : l ∈ x.splitOn a) :
    ∀ b ∈ l, b ∈ x ∧ b ≠ a := by
  induction x generalizing l with
  | nil =>
    rw [splitOn_nil, mem_singleton] at h
    simp [h]
  | cons y x ih =>
    rw [splitOn_cons_eq_if_modifyHead] at h
    by_cases hy : (y == a) = true
    · rw [if_pos hy] at h
      rcases mem_cons.1 h with rfl | h
      · simp
      · intro b hb
        have := ih h b hb
        exact ⟨mem_cons_of_mem _ this.1, this.2⟩
    · rw [if_neg hy] at h
      cases hx : x.splitOn a with
      | nil =>
        rw [hx] at h
        cases h
      | cons part ps =>
        rw [hx] at h
        intro b hb
        rcases mem_cons.1 h with rfl | h
        · rcases mem_cons.1 hb with rfl | hb
          · exact ⟨mem_cons_self, by simpa using hy⟩
          · have := ih (l := part) (by rw [hx]; exact mem_cons_self) b hb
            exact ⟨mem_cons_of_mem _ this.1, this.2⟩
        · have := ih (l := l) (by rw [hx]; exact mem_cons_of_mem _ h) b hb
          exact ⟨mem_cons_of_mem _ this.1, this.2⟩

/-- Every element but the separator is in a part. -/
theorem exists_mem_splitOn (hb : b ∈ x) (hab : b ≠ a) : ∃ l ∈ x.splitOn a, b ∈ l := by
  rw [← show [a].intercalate (x.splitOn a) = x from intercalate_splitOn a] at hb
  rcases mem_of_mem_intercalate hb with hb | h
  · exact absurd (mem_singleton.1 hb) hab
  · exact h

end Search
