import Fluxheim.Balancer.Pool

/-!
# Health of a backend

A backend changes its health after enough observations in a row that say the opposite.  The code
counts them; here the counter is read off the observations.
-/

namespace Fluxheim.Balancer

/-- A health with the count of contrary observations. -/
structure FluxBackendHealthInner extends FluxBackendHealth where
  consecutiveCounter : ℕ := 0

/-- The numbers of successes and of failures in a row that change the health. -/
structure HealthThresholds where
  success : ℕ
  failure : ℕ
  success_le : success ≤ USIZE_MAX
  failure_le : failure ≤ USIZE_MAX

/-- The observations needed for a change. -/
def HealthThresholds.healthThreshold (thresholds : HealthThresholds) (success : Bool) : ℕ :=
  if success then thresholds.success else thresholds.failure

theorem HealthThresholds.healthThreshold_le (thresholds : HealthThresholds) (success : Bool) :
    thresholds.healthThreshold success ≤ USIZE_MAX := by
  rw [healthThreshold]
  split_ifs
  · exact thresholds.success_le
  · exact thresholds.failure_le

namespace FluxBackendHealthInner

/-- The administrator's switch. -/
def enable (health : FluxBackendHealthInner) (enabled : Bool) : FluxBackendHealthInner :=
  { health with enabled := enabled }

/-- One observation, and whether it changes the health. -/
def observe (health : FluxBackendHealthInner) (healthy : Bool) (flipThreshold : ℕ) :
    Bool × FluxBackendHealthInner :=
  if health.healthy ≠ healthy then
    let consecutiveCounter := min USIZE_MAX (health.consecutiveCounter + 1)
    if flipThreshold ≤ consecutiveCounter then
      (true, { health with healthy := healthy, consecutiveCounter := 0 })
    else (false, { health with consecutiveCounter := consecutiveCounter })
  else (false, { health with consecutiveCounter := 0 })

variable (thresholds : HealthThresholds) (observed : ℕ → Bool)

/-- The health before the `i`-th observation. -/
def after : ℕ → FluxBackendHealthInner
  | 0 => {}
  | i + 1 => ((after i).observe (observed i) (thresholds.healthThreshold (observed i))).2

/-- The `i`-th observation changes the health. -/
def flips (i : ℕ) : Bool :=
  ((after thresholds observed i).observe (observed i) (thresholds.healthThreshold (observed i))).1

/-- The counter is the number of contrary observations at the end, and they come after the last
flip. -/
structure Counted (i : ℕ) : Prop where
  le : (after thresholds observed i).consecutiveCounter ≤ i
  small : (after thresholds observed i).consecutiveCounter < USIZE_MAX
  contrary : ∀ k < i, i ≤ k + (after thresholds observed i).consecutiveCounter →
    observed k ≠ (after thresholds observed i).healthy
  unflipped : ∀ k < i, i ≤ k + (after thresholds observed i).consecutiveCounter →
    flips thresholds observed k = false
  maximal : ∀ k, k + (after thresholds observed i).consecutiveCounter + 1 = i →
    observed k = (after thresholds observed i).healthy

variable {thresholds observed} {i : ℕ}

/-- The three things an observation can do. -/
theorem observe_cases (hsmall : (after thresholds observed i).consecutiveCounter < USIZE_MAX) :
    let health := after thresholds observed i
    (observed i = health.healthy ∧ flips thresholds observed i = false ∧
      after thresholds observed (i + 1) = { health with consecutiveCounter := 0 }) ∨
    (observed i ≠ health.healthy ∧
      thresholds.healthThreshold (observed i) ≤ health.consecutiveCounter + 1 ∧
      flips thresholds observed i = true ∧ after thresholds observed (i + 1) =
        { health with healthy := observed i, consecutiveCounter := 0 }) ∨
    (observed i ≠ health.healthy ∧
      health.consecutiveCounter + 1 < thresholds.healthThreshold (observed i) ∧
      flips thresholds observed i = false ∧ after thresholds observed (i + 1) =
        { health with consecutiveCounter := health.consecutiveCounter + 1 }) := by
  intro health
  have hcount : min USIZE_MAX (health.consecutiveCounter + 1) = health.consecutiveCounter + 1 :=
    min_eq_right hsmall
  rw [after, flips, observe, hcount]
  dsimp only
  split_ifs with hne hflip
  · exact Or.inr (Or.inl ⟨Ne.symm hne, hflip, rfl, rfl⟩)
  · exact Or.inr (Or.inr ⟨Ne.symm hne, not_le.1 hflip, rfl, rfl⟩)
  · exact Or.inl ⟨(not_not.1 hne).symm, rfl, rfl⟩

theorem Counted.step (h : Counted thresholds observed i) : Counted thresholds observed (i + 1) := by
  rcases observe_cases h.small with ⟨hagree, -, hafter⟩ | ⟨-, -, -, hafter⟩ |
    ⟨hne, hbelow, hflip, hafter⟩
  · -- an observation that agrees ends the stretch
    constructor <;> simp only [hafter]
    · omega
    · decide
    · omega
    · omega
    · intro k hk
      obtain rfl : k = i := by omega
      exact hagree
  · -- and so does a flip
    constructor <;> simp only [hafter]
    · omega
    · decide
    · omega
    · omega
    · intro k hk
      obtain rfl : k = i := by omega
      rfl
  · have hle := h.le
    constructor <;> simp only [hafter]
    · omega
    · exact hbelow.trans_le (thresholds.healthThreshold_le _)
    · intro k hk hstretch
      rcases Nat.lt_succ_iff_lt_or_eq.1 hk with hlt | rfl
      · exact h.contrary k hlt (by omega)
      · exact hne
    · intro k hk hstretch
      rcases Nat.lt_succ_iff_lt_or_eq.1 hk with hlt | rfl
      · exact h.unflipped k hlt (by omega)
      · exact hflip
    · intro k hk
      exact h.maximal k (by omega)

theorem counted (thresholds : HealthThresholds) (observed : ℕ → Bool) (i : ℕ) :
    Counted thresholds observed i := by
  induction i with
  | zero => constructor <;> simp [after, USIZE_MAX]
  | succ i ih => exact ih.step

/-- What the code reports is a change of the health. -/
theorem flips_iff_changed : flips thresholds observed i = true ↔
    (after thresholds observed (i + 1)).healthy ≠ (after thresholds observed i).healthy := by
  rcases observe_cases (counted thresholds observed i).small with ⟨-, hnot, hafter⟩ |
    ⟨hne, -, hflip, hafter⟩ | ⟨-, -, hnot, hafter⟩
  · simp [hnot, hafter]
  · simp [hflip, hafter, hne]
  · simp [hnot, hafter]

/-- Enough of the last observations are contrary to the health, and they come after the last
flip. -/
theorem flips_iff_last : flips thresholds observed i = true ↔
    max 1 (thresholds.healthThreshold (observed i)) ≤ i + 1 ∧
    ∀ k ≤ i, i < k + max 1 (thresholds.healthThreshold (observed i)) →
      observed k ≠ (after thresholds observed i).healthy ∧
      ∀ j < i, flips thresholds observed j = true → ¬ k < j := by
  have h := counted thresholds observed i
  have hle := h.le
  constructor
  · intro hflips
    obtain ⟨hne, henough⟩ : observed i ≠ (after thresholds observed i).healthy ∧
        thresholds.healthThreshold (observed i) ≤
          (after thresholds observed i).consecutiveCounter + 1 := by
      rcases observe_cases h.small with ⟨-, hnot, -⟩ | ⟨hne, henough, -⟩ | ⟨-, -, hnot, -⟩
      · simp [hflips] at hnot
      · exact ⟨hne, henough⟩
      · simp [hflips] at hnot
    refine ⟨by omega, fun k hk hlast => ⟨?_, fun j hj hflip hpre => ?_⟩⟩
    · rcases hk.lt_or_eq with hlt | rfl
      · exact h.contrary k hlt (by omega)
      · exact hne
    · simp [h.unflipped j hj (by omega)] at hflip
  · rintro ⟨hlen, hlast⟩
    have hne := (hlast i le_rfl (by omega)).1
    rcases observe_cases h.small with ⟨hagree, -⟩ | ⟨-, -, hflips, -⟩ | ⟨-, hbelow, -⟩
    · exact absurd hagree hne
    · exact hflips
    · -- the observation before the stretch is among the last ones, and agrees
      have hstretch := h.maximal (i - (after thresholds observed i).consecutiveCounter - 1)
        (by omega)
      exact absurd hstretch (hlast _ (by omega) (by omega)).1

/-- The health changes at an observation exactly if as many of the last observations as the
threshold says, and at least one, are all contrary to it and none of them is before an earlier
change. -/
theorem health_flips_iff (thresholds : HealthThresholds) (observed : ℕ → Bool) (i : ℕ) :
    (after thresholds observed (i + 1)).healthy ≠ (after thresholds observed i).healthy ↔
      max 1 (thresholds.healthThreshold (observed i)) ≤ i + 1 ∧
      ∀ k ≤ i, i < k + max 1 (thresholds.healthThreshold (observed i)) →
        observed k ≠ (after thresholds observed i).healthy ∧
        ∀ j < i, (after thresholds observed (j + 1)).healthy ≠
          (after thresholds observed j).healthy → ¬ k < j := by
  rw [← flips_iff_changed, flips_iff_last]
  simp only [flips_iff_changed]

end FluxBackendHealthInner

end Fluxheim.Balancer
