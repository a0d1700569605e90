import Mathlib.Data.List.Basic
import Mathlib.Tactic

/-!
# Incremental machines

A machine reads a list from the left.  In a state it looks at the unread input and waits for more,
fails, finishes, or moves to a next state.  The one law is that a decision is never revised: what
the machine does with some input, it does with every longer one (`Machine.step_append`).  The law
lifts to runs: one that stopped is unchanged by more input, and one that waits is continued from
where it waits.  So a run does not depend on how its input was cut into pieces.
-/

namespace Incremental

open List

/-- What a machine does with its unread input.  `k` is the number of elements used up. -/
inductive Verdict (σ ε ρ : Type*)
  | wait
  | fail (e : ε)
  | done (r : ρ) (k : ℕ)
  | next (s : σ) (k : ℕ)

/-- A machine over the alphabet `α` with states `σ`, errors `ε` and results `ρ`. -/
structure Machine (α σ ε ρ : Type*) where
  step : σ → List α → Verdict σ ε ρ
  step_append : ∀ s x t, step s x ≠ .wait → step s (x ++ t) = step s x
  next_pos : ∀ s x s' k, step s x = .next s' k → 0 < k ∧ k ≤ x.length
  done_le : ∀ s x r k, step s x = .done r k → k ≤ x.length

/-- The outcome of a run.  `n` is the number of elements used up since its start. -/
inductive Outcome (σ ε ρ : Type*)
  | pending (s : σ) (n : ℕ)
  | fail (e : ε)
  | done (r : ρ) (n : ℕ)

variable {α σ ε ρ : Type*}

/-- The outcome of a run whose first `k` elements were used up before. -/
def Outcome.shift (k : ℕ) : Outcome σ ε ρ → Outcome σ ε ρ
  | .pending s n => .pending s (k + n)
  | .fail e => .fail e
  | .done r n => .done r (k + n)

@[simp] theorem Outcome.shift_shift (j k : ℕ) (o : Outcome σ ε ρ) :
    (o.shift k).shift j = o.shift (j + k) := by
  cases o <;> simp [shift, add_assoc]

@[simp] theorem Outcome.shift_zero (o : Outcome σ ε ρ) : o.shift 0 = o := by
  cases o <;> simp [shift]

theorem Outcome.shift_eq_pending {k n : ℕ} {s : σ} {o : Outcome σ ε ρ} :
    o.shift k = .pending s n ↔ ∃ m, o = .pending s m ∧ n = k + m := by
  cases o with
  | pending s' m =>
    simp only [shift, pending.injEq]
    constructor
    · rintro ⟨rfl, rfl⟩; exact ⟨m, ⟨rfl, rfl⟩, rfl⟩
    · rintro ⟨_, ⟨rfl, rfl⟩, rfl⟩; exact ⟨rfl, rfl⟩
  | fail e => simp [shift]
  | done r m => simp [shift]

theorem Outcome.shift_eq_done {k n : ℕ} {r : ρ} {o : Outcome σ ε ρ} :
    o.shift k = .done r n ↔ ∃ m, o = .done r m ∧ n = k + m := by
  cases o with
  | pending s m => simp [shift]
  | fail e => simp [shift]
  | done r' m =>
    simp only [shift, done.injEq]
    constructor
    · rintro ⟨rfl, rfl⟩; exact ⟨m, ⟨rfl, rfl⟩, rfl⟩
    · rintro ⟨_, ⟨rfl, rfl⟩, rfl⟩; exact ⟨rfl, rfl⟩

namespace Machine

variable (M : Machine α σ ε ρ)

/-- Run the machine as far as the input goes. -/
def run (s : σ) (x : List α) : Outcome σ ε ρ :=
  match _h : M.step s x with
  | .wait => .pending s 0
  | .fail e => .fail e
  | .done r k => .done r k
  | .next s' k => (run s' (x.drop k)).shift k
termination_by x.length
decreasing_by
  have := M.next_pos s x s' k _h
  rw [length_drop]
  omega

variable {x : List α} {s s' : σ} {n : ℕ}

theorem run_of_wait {s : σ} (h : M.step s x = .wait) : M.run s x = .pending s 0 := by
  rw [run]; split <;> simp_all

theorem run_of_fail {s : σ} {e : ε} (h : M.step s x = .fail e) : M.run s x = .fail e := by
  rw [run]; split <;> simp_all

theorem run_of_done {s : σ} {r : ρ} {k : ℕ} (h : M.step s x = .done r k) :
    M.run s x = .done r k := by
  rw [run]; split <;> simp_all

theorem run_of_next {k : ℕ} (h : M.step s x = .next s' k) :
    M.run s x = (M.run s' (x.drop k)).shift k := by
  rw [run]; split <;> simp_all

/-- Induction along a run: the four verdicts of the step at hand. -/
theorem run_induction {motive : σ → List α → Prop} (wait : ∀ s x, M.step s x = .wait → motive s x)
    (fail : ∀ s x e, M.step s x = .fail e → motive s x)
    (done : ∀ s x r k, M.step s x = .done r k → motive s x)
    (next : ∀ s x s' k, M.step s x = .next s' k → motive s' (x.drop k) → motive s x)
    (s : σ) (x : List α) : motive s x := by
  induction hn : x.length using Nat.strong_induction_on generalizing s x with
  | _ n ih =>
    cases h : M.step s x with
    | wait => exact wait s x h
    | fail e => exact fail s x e h
    | done r k => exact done s x r k h
    | next s' k =>
      have hk := M.next_pos s x s' k h
      exact next s x s' k h (ih _ (by rw [length_drop]; omega) s' (x.drop k) rfl)

/-- A run uses up no more than its input. -/
theorem run_pending_le (h : M.run s x = .pending s' n) : n ≤ x.length := by
  induction s, x using M.run_induction generalizing n with
  | wait s x hs => rw [M.run_of_wait hs] at h; cases h; omega
  | fail s x e hs => rw [M.run_of_fail hs] at h; cases h
  | done s x r k hs => rw [M.run_of_done hs] at h; cases h
  | next s x s₁ k hs ih =>
    rw [M.run_of_next hs] at h
    have hk := M.next_pos s x s₁ k hs
    obtain ⟨m, hr, rfl⟩ := Outcome.shift_eq_pending.1 h
    have := ih hr
    rw [length_drop] at this
    omega

theorem run_done_le {s : σ} {r : ρ} (h : M.run s x = .done r n) : n ≤ x.length := by
  induction s, x using M.run_induction generalizing n with
  | wait s x hs => rw [M.run_of_wait hs] at h; cases h
  | fail s x e hs => rw [M.run_of_fail hs] at h; cases h
  | done s x r k hs =>
    rw [M.run_of_done hs] at h
    cases h
    exact M.done_le s x _ _ hs
  | next s x s₁ k hs ih =>
    rw [M.run_of_next hs] at h
    have hk := M.next_pos s x s₁ k hs
    obtain ⟨m, hr, rfl⟩ := Outcome.shift_eq_done.1 h
    have := ih hr
    rw [length_drop] at this
    omega

/-- Where a run waits, the machine waits. -/
theorem step_of_run_pending (h : M.run s x = .pending s' n) : M.step s' (x.drop n) = .wait := by
  induction s, x using M.run_induction generalizing n with
  | wait s x hs => rw [M.run_of_wait hs] at h; cases h; exact hs
  | fail s x e hs => rw [M.run_of_fail hs] at h; cases h
  | done s x r k hs => rw [M.run_of_done hs] at h; cases h
  | next s x s₁ k hs ih =>
    rw [M.run_of_next hs] at h
    obtain ⟨m, hr, rfl⟩ := Outcome.shift_eq_pending.1 h
    rw [← drop_drop]
    exact ih hr

/-- An extension of the input repeats the run up to where it waited, and goes on from there. -/
theorem run_append_pending (h : M.run s x = .pending s' n)
    (t : List α) : M.run s (x ++ t) = (M.run s' (x.drop n ++ t)).shift n := by
  induction s, x using M.run_induction generalizing n with
  | wait s x hs => rw [M.run_of_wait hs] at h; cases h; simp
  | fail s x e hs => rw [M.run_of_fail hs] at h; cases h
  | done s x r k hs => rw [M.run_of_done hs] at h; cases h
  | next s x s₁ k hs ih =>
    rw [M.run_of_next hs] at h
    have hk := M.next_pos s x s₁ k hs
    have hs' : M.step s (x ++ t) = .next s₁ k := by
      rw [M.step_append s x t (by simp [hs]), hs]
    rw [M.run_of_next hs', drop_append_of_le_length hk.2]
    obtain ⟨m, hr, rfl⟩ := Outcome.shift_eq_pending.1 h
    rw [ih hr, Outcome.shift_shift, drop_drop]

/-- A run that failed or finished is not changed by more input. -/
theorem run_append {s : σ} (t : List α)
    (h : ∀ s' n, M.run s x ≠ .pending s' n) : M.run s (x ++ t) = M.run s x := by
  induction s, x using M.run_induction with
  | wait s x hs => exact absurd (M.run_of_wait hs) (h s 0)
  | fail s x e hs =>
    have hs' := M.step_append s x t (by simp [hs])
    rw [M.run_of_fail hs, M.run_of_fail (hs'.trans hs)]
  | done s x r k hs =>
    have hs' := M.step_append s x t (by simp [hs])
    rw [M.run_of_done hs, M.run_of_done (hs'.trans hs)]
  | next s x s₁ k hs ih =>
    have hk := M.next_pos s x s₁ k hs
    have hs' := M.step_append s x t (by simp [hs])
    rw [M.run_of_next hs, M.run_of_next (hs'.trans hs), drop_append_of_le_length hk.2, ih]
    intro s' n hr
    refine h s' (k + n) ?_
    rw [M.run_of_next hs, hr]
    rfl

/-- An invariant of the steps holds where a run waits. -/
theorem run_pending_invariant {P : σ → ℕ → Prop} (hstep : ∀ s x s' k m, P s m →
    M.step s x = .next s' k → P s' (m + k)) {n m : ℕ} (h0 : P s m)
    (h : M.run s x = .pending s' n) : P s' (m + n) := by
  induction s, x using M.run_induction generalizing n m with
  | wait s x hs => rw [M.run_of_wait hs] at h; cases h; exact h0
  | fail s x e hs => rw [M.run_of_fail hs] at h; cases h
  | done s x r k hs => rw [M.run_of_done hs] at h; cases h
  | next s x s₁ k hs ih =>
    rw [M.run_of_next hs] at h
    obtain ⟨j, hr, rfl⟩ := Outcome.shift_eq_pending.1 h
    rw [← add_assoc]
    exact ih (hstep s x s₁ k m h0 hs) hr

end Machine

end Incremental
