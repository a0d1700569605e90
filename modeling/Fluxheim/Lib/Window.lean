import Mathlib.Data.List.Basic
import Mathlib.Data.List.TakeWhile

/-!
# Sliding windows

A log of times, and a counter that keeps only its most recent part: the counter may forget a time
once more than `width` has passed since.  Then counting what the counter still holds bounds what
the whole log has in any window of that width.
-/

namespace Window

open List

/-- How many of the times lie in the closed window that opens at `start`. -/
def inWindow (start width : ℕ) (times : List ℕ) : ℕ :=
  times.countP fun x => start ≤ x ∧ x ≤ start + width

theorem inWindow_append (start w : ℕ) (xs ys : List ℕ) :
    inWindow start w (xs ++ ys) = inWindow start w xs + inWindow start w ys :=
  countP_append

theorem inWindow_le_length (start w : ℕ) (times : List ℕ) : inWindow start w times ≤ times.length :=
  countP_le_length

theorem inWindow_eq_zero {start w : ℕ} {times : List ℕ}
    (h : ∀ x ∈ times, x < start ∨ start + w < x) : inWindow start w times = 0 := by
  rw [inWindow, countP_eq_zero]
  intro x hx
  rw [decide_eq_true_eq]
  have := h x hx
  omega

/-- The log splits into what the counter has forgotten by the time `now` and what it holds. -/
def Forgets (width now : ℕ) (log held : List ℕ) : Prop :=
  ∃ old, log = old ++ held ∧ ∀ x ∈ old, x + width < now

theorem Forgets.refl (w now : ℕ) (log : List ℕ) : Forgets w now log log :=
  ⟨[], rfl, fun _ h => absurd h not_mem_nil⟩

/-- Forgetting goes on as time passes. -/
theorem Forgets.trans {w now later : ℕ} {log held rest : List ℕ}
    (h : Forgets w now log held) (h' : Forgets w later held rest) (hle : now ≤ later) :
    Forgets w later log rest := by
  obtain ⟨old, rfl, hold⟩ := h
  obtain ⟨more, rfl, hmore⟩ := h'
  refine ⟨old ++ more, (append_assoc _ _ _).symm, fun x hx => ?_⟩
  rcases mem_append.1 hx with hx | hx
  · exact lt_of_lt_of_le (hold x hx) hle
  · exact hmore x hx

theorem Forgets.concat {w now : ℕ} {log held : List ℕ} (h : Forgets w now log held)
    (x : ℕ) : Forgets w now (log ++ [x]) (held ++ [x]) := by
  obtain ⟨old, rfl, hold⟩ := h
  exact ⟨old, append_assoc _ _ _, hold⟩

/-- Dropping the times before `now - width` from the front is a way to forget. -/
theorem forgets_dropWhile (w now : ℕ) (log : List ℕ) :
    Forgets w now log (log.dropWhile fun x => decide (x < now - w)) := by
  refine ⟨log.takeWhile fun x => decide (x < now - w),
    takeWhile_append_dropWhile.symm, fun x hx => ?_⟩
  have hlt := mem_takeWhile_imp hx
  rw [decide_eq_true_eq] at hlt
  omega

/-- **A counter that holds fewer than `bound` times may admit one more:** the log then still has
at most `bound` times in any window. -/
theorem inWindow_concat_le {w now bound : ℕ} {log held : List ℕ}
    (h : Forgets w now log held) (hheld : held.length < bound)
    (hlog : ∀ start, inWindow start w log ≤ bound) (start : ℕ) :
    inWindow start w (log ++ [now]) ≤ bound := by
  rw [inWindow_append]
  by_cases hnow : now ≤ start + w
  · -- what has been forgotten lies before a window that reaches up to `now`
    obtain ⟨old, rfl, hold⟩ := h
    have hzero : inWindow start w old = 0 :=
      inWindow_eq_zero fun x hx => Or.inl (by have := hold x hx; omega)
    have hkept := inWindow_le_length start w held
    have hone := inWindow_le_length start w [now]
    rw [inWindow_append]
    simp only [length_singleton] at hone
    omega
  · have hzero : inWindow start w [now] = 0 :=
      inWindow_eq_zero fun x hx => Or.inr (by rw [mem_singleton.1 hx]; omega)
    rw [hzero]
    exact hlog start

end Window
