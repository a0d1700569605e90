import Mathlib.Algebra.Order.Field.Basic
import Mathlib.Data.List.Count
import Mathlib.Tactic.Linarith

/-!
# Token buckets

Requests are released at times from an ordered field, at most `burst` at once and `rate` per unit of
time in the long run.  A bucket is tracked by its *level*: `rate` times the time at which it would
be full again, if nothing more were released.
-/

namespace TokenBucket

section Count

variable {K : Type*} [LinearOrder K]

/-- The number of releases at `a` or later. -/
def since (a : K) (releases : List K) : ℕ := releases.countP (a ≤ ·)

/-- The number of releases between `a` and `e`. -/
def within (a e : K) (releases : List K) : ℕ := releases.countP fun r => a ≤ r ∧ r ≤ e

theorem within_le_since (a e : K) (releases : List K) : within a e releases ≤ since a releases :=
  List.countP_mono_left fun _ _ h => by simp_all

theorem since_concat (a r : K) (releases : List K) :
    since a (releases ++ [r]) = since a releases + if a ≤ r then 1 else 0 := by
  simp [since, List.countP_append, List.countP_cons]

theorem within_concat (a e r : K) (releases : List K) :
    within a e (releases ++ [r]) = within a e releases + if a ≤ r ∧ r ≤ e then 1 else 0 := by
  simp [within, List.countP_append, List.countP_cons]

end Count

variable {K : Type*} [Field K] [LinearOrder K] [IsStrictOrderedRing K]

/-- Whichever time one counts from, the level has gone up by one for every release since; and no
interval has more releases than it may. -/
structure Paced (burst rate level : K) (releases : List K) : Prop where
  since_le : ∀ a, 0 < since a releases → (since a releases : K) ≤ level - rate * a
  within_le : ∀ a e, a ≤ e → (within a e releases : K) ≤ burst + rate * (e - a)

variable {burst rate level level' r : K} {releases : List K}

theorem paced_nil (hbur : 0 ≤ burst) (hrate : 0 ≤ rate) (level : K) :
    Paced burst rate level [] := by
  refine ⟨fun a h => absurd h (by simp [since]), fun a e h => ?_⟩
  have : 0 ≤ rate * (e - a) := mul_nonneg hrate (sub_nonneg.2 h)
  simp only [within, List.countP_nil, Nat.cast_zero]
  linarith

theorem Paced.mono (h : Paced burst rate level releases) (hle : level ≤ level') :
    Paced burst rate level' releases := by
  refine ⟨fun a ha => ?_, h.within_le⟩
  have := h.since_le a ha
  linarith

/-- **One more release**, at `r`.  The level goes up by at least one, to between what the bucket was
at `r` and what it is when it is empty. -/
theorem Paced.release (h : Paced burst rate level releases) (hrate : 0 ≤ rate)
    (hlev : level + 1 ≤ level') (hfull : rate * r + 1 ≤ level')
    (hempty : level' ≤ rate * r + burst) : Paced burst rate level' (releases ++ [r]) := by
  have hsince : ∀ a, 0 < since a (releases ++ [r]) →
      (since a (releases ++ [r]) : K) ≤ level' - rate * a := by
    intro a ha
    rw [since_concat] at ha ⊢
    have hold := h.since_le a
    by_cases har : a ≤ r
    · rw [if_pos har]
      push_cast
      rcases eq_zero_or_pos (since a releases) with hzero | hpos
      · -- the first release since `a`
        have := mul_le_mul_of_nonneg_left har hrate
        rw [hzero, Nat.cast_zero]
        linarith
      · have := hold hpos
        linarith
    · rw [if_neg har, add_zero] at ha ⊢
      have := hold ha
      linarith
  refine ⟨hsince, fun a e hae => ?_⟩
  by_cases hin : a ≤ r ∧ r ≤ e
  · have hpos : 0 < since a (releases ++ [r]) := by
      rw [since_concat, if_pos hin.1]
      exact Nat.succ_pos _
    have hle : (within a e (releases ++ [r]) : K) ≤ since a (releases ++ [r]) :=
      Nat.cast_le.2 (within_le_since a e _)
    have hr := mul_le_mul_of_nonneg_left hin.2 hrate
    have := hsince a hpos
    linarith
  · rw [within_concat, if_neg hin]
    exact h.within_le a e hae

end TokenBucket
