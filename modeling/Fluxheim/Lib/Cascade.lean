import Mathlib.Data.List.Basic

/-!
# Searching with a test that has state

A test may change a state each time it is asked (it draws a sample, or notes who was asked), so what
it answers depends on the questions before.
-/

namespace Cascade

open List

variable {α β σ : Type*}

/-- The elements that pass; all of them are asked, in order. -/
def filter (test : α → σ → Bool × σ) : List α → σ → List α × σ
  | [], s => ([], s)
  | a :: l, s =>
    (if (test a s).1 then a :: (filter test l (test a s).2).1 else (filter test l (test a s).2).1,
      (filter test l (test a s).2).2)

/-- The first element that passes; those behind it are not asked. -/
def find (test : α → σ → Bool × σ) : List α → σ → Option α × σ
  | [], s => (none, s)
  | a :: l, s => if (test a s).1 then (some a, (test a s).2) else find test l (test a s).2

/-- The first attempt that gives a result. -/
def firstSome (attempt : α → σ → Option β × σ) : List α → σ → Option β × σ
  | [], s => (none, s)
  | a :: l, s =>
    match (attempt a s).1 with
    | some b => (some b, (attempt a s).2)
    | none => firstSome attempt l (attempt a s).2

/-- The state after every element has been asked. -/
def after (test : α → σ → Bool × σ) (l : List α) (s : σ) : σ :=
  l.foldl (fun s a => (test a s).2) s

/-- Every element with the answer it gets. -/
def answers (test : α → σ → Bool × σ) : List α → σ → List (α × Bool)
  | [], _ => []
  | a :: l, s => (a, (test a s).1) :: answers test l (test a s).2

section Test

variable {test : α → σ → Bool × σ} {l : List α} {s : σ} {a : α}

theorem mem_filter (h : a ∈ (filter test l s).1) : a ∈ l ∧ ∃ t, (test a t).1 = true := by
  induction l generalizing s with
  | nil => simp [filter] at h
  | cons b l ih =>
    rw [filter] at h
    split_ifs at h with hb
    · rcases mem_cons.1 h with rfl | h
      · exact ⟨mem_cons_self, s, hb⟩
      · exact ⟨mem_cons_of_mem _ (ih h).1, (ih h).2⟩
    · exact ⟨mem_cons_of_mem _ (ih h).1, (ih h).2⟩

theorem find_some (h : (find test l s).1 = some a) : a ∈ l ∧ ∃ t, (test a t).1 = true := by
  induction l generalizing s with
  | nil => simp [find] at h
  | cons b l ih =>
    rw [find] at h
    split_ifs at h with hb
    · obtain rfl : b = a := by simpa using h
      exact ⟨mem_cons_self, s, hb⟩
    · exact ⟨mem_cons_of_mem _ (ih h).1, (ih h).2⟩

@[simp] theorem after_nil : after test [] s = s := rfl

@[simp] theorem after_cons : after test (a :: l) s = after test l (test a s).2 := rfl

/-- A test that changes nothing leaves the state as it is. -/
theorem find_snd (h : ∀ b, (test b s).2 = s) : (find test l s).2 = s := by
  induction l with
  | nil => rfl
  | cons b l ih =>
    rw [find, h]
    split_ifs
    · rfl
    · exact ih

/-- Where the answers are settled, whoever of the list has been asked before, the search is that of
a list. -/
theorem find_eq_find? {p : α → Bool} (h : ∀ asked : List α, (∀ b ∈ asked, b ∈ l) → ∀ b ∈ l,
    (test b (after test asked s)).1 = p b) : (find test l s).1 = l.find? p := by
  induction l generalizing s with
  | nil => rfl
  | cons b l ih =>
    have hb : (test b s).1 = p b := h [] (by simp) b mem_cons_self
    rw [find, find?_cons, ← hb]
    cases (test b s).1 with
    | true => rfl
    | false =>
      refine ih fun asked hask c hc => ?_
      have hmem : ∀ d ∈ b :: asked, d ∈ b :: l :=
        forall_mem_cons.2 ⟨mem_cons_self, fun d hd => mem_cons_of_mem _ (hask d hd)⟩
      exact h (b :: asked) hmem c (mem_cons_of_mem _ hc)

theorem filter_snd : (filter test l s).2 = after test l s := by
  induction l generalizing s with
  | nil => rfl
  | cons b l ih => exact ih

/-- Who passes is who gets the answer yes. -/
theorem mem_filter_iff : a ∈ (filter test l s).1 ↔ (a, true) ∈ answers test l s := by
  induction l generalizing s with
  | nil => simp [filter, answers]
  | cons b l ih =>
    rw [filter, answers, mem_cons, ← ih]
    cases hb : (test b s).1 <;> simp

theorem filter_eq_nil_iff : (filter test l s).1 = [] ↔ ∀ a, (a, true) ∉ answers test l s := by
  simp only [eq_nil_iff_forall_not_mem, mem_filter_iff]

theorem mem_of_mem_answers {yes : Bool} (h : (a, yes) ∈ answers test l s) : a ∈ l := by
  induction l generalizing s with
  | nil => simp [answers] at h
  | cons b l ih =>
    rcases mem_cons.1 h with h | h
    · obtain ⟨rfl, -⟩ := Prod.mk.inj h
      exact mem_cons_self
    · exact mem_cons_of_mem _ (ih h)

/-- A test that asks only those who pass a guard, and lets in only those who pass a mask too. -/
def guarded (guard mask : α → Bool) (test : α → σ → Bool × σ) (a : α) (s : σ) : Bool × σ :=
  if guard a then ((test a s).1 && mask a, (test a s).2) else (false, s)

theorem after_guarded (guard mask : α → Bool) :
    after (guarded guard mask test) l s = after test (l.filter guard) s := by
  induction l generalizing s with
  | nil => rfl
  | cons b l ih =>
    rw [after_cons, ih]
    cases hb : guard b <;> simp [guarded, hb]

theorem mem_answers_guarded {guard mask : α → Bool} :
    (a, true) ∈ answers (guarded guard mask test) l s ↔
      (a, true) ∈ answers test (l.filter guard) s ∧ mask a = true := by
  induction l generalizing s with
  | nil => simp [answers]
  | cons b l ih =>
    rw [answers, mem_cons, ih, filter_cons]
    cases hb : guard b with
    | false => simp [guarded, hb]
    | true =>
      simp only [guarded, hb, if_true, answers, mem_cons, Prod.mk.injEq, Bool.true_eq,
        Bool.and_eq_true]
      constructor
      · rintro (⟨rfl, h1, h2⟩ | h)
        · exact ⟨Or.inl ⟨rfl, h1⟩, h2⟩
        · exact ⟨Or.inr h.1, h.2⟩
      · rintro ⟨⟨rfl, h1⟩ | h1, h2⟩
        · exact Or.inl ⟨rfl, h1, h2⟩
        · exact Or.inr ⟨h1, h2⟩

end Test

section Attempts

variable {attempt : α → σ → Option β × σ} {l : List α} {s : σ} {a : α} {b : β}

theorem firstSome_some (h : (firstSome attempt l s).1 = some b) :
    ∃ a ∈ l, ∃ t, (attempt a t).1 = some b := by
  induction l generalizing s with
  | nil => simp [firstSome] at h
  | cons c l ih =>
    rw [firstSome] at h
    cases hc : (attempt c s).1 with
    | some d =>
      rw [hc] at h
      exact ⟨c, mem_cons_self, s, hc.trans h⟩
    | none =>
      rw [hc] at h
      obtain ⟨a, ha, t, hb⟩ := ih h
      exact ⟨a, mem_cons_of_mem _ ha, t, hb⟩

@[simp] theorem firstSome_nil : firstSome attempt [] s = (none, s) := rfl

/-- A cascade finds nothing if its first attempt fails and the others, from the state it leaves,
find nothing. -/
theorem firstSome_cons_eq_none_iff :
    (firstSome attempt (a :: l) s).1 = none ↔
      (attempt a s).1 = none ∧ (firstSome attempt l (attempt a s).2).1 = none := by
  rw [firstSome]
  cases (attempt a s).1 <;> simp

/-- Two cascades whose attempts agree, but for one result of the first, and change nothing. -/
theorem firstSome_eq_or {other : α → σ → Option β × σ} {t : σ}
    (hs : ∀ a ∈ l, (attempt a s).2 = s) (ht : ∀ a ∈ l, (other a t).2 = t)
    (h : ∀ a ∈ l, (attempt a s).1 = (other a t).1 ∨ (attempt a s).1 = some b) :
    (firstSome attempt l s).1 = (firstSome other l t).1 ∨ (firstSome attempt l s).1 = some b := by
  induction l with
  | nil => exact Or.inl rfl
  | cons a l ih =>
    rw [firstSome, firstSome, hs a mem_cons_self, ht a mem_cons_self]
    rcases h a mem_cons_self with heq | heq
    · rw [← heq]
      cases (attempt a s).1 with
      | some c => exact Or.inl rfl
      | none =>
        exact ih (fun c hc => hs c (mem_cons_of_mem _ hc))
          (fun c hc => ht c (mem_cons_of_mem _ hc))
          (fun c hc => h c (mem_cons_of_mem _ hc))
    · rw [heq]
      exact Or.inr rfl

end Attempts

end Cascade
