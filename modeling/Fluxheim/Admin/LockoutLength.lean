import Fluxheim.Admin.ThrottleRuns

/-!
# How long the lockouts of a source last

The length of a lockout grows with the count of lockouts in the source's record.  That record is
kept while the source is locked out or has failures in the window, and the failure that begins a
lockout clears the failures; so the record is gone when the source is heard again, and every lockout
has the length of the first.
-/

namespace Fluxheim.Admin

open Run

variable {A : Type} [DecidableEq A] {config : AdminAuthThrottleConfig} {a : A} {w : Watch A}
  {request : AdminRequest A}

/-- A record carries the count of a lockout only while it is locked out, with no failures. -/
def Restarted (record : Option AdminAuthSourceState) : Prop :=
  ∀ r, record = some r → r.lockouts = 0 ∧ r.lockedUntil = 0 ∨ r.lockouts = 1 ∧ r.failures = []

theorem restarted_none : Restarted none :=
  fun _ h => nomatch h

variable {record : Option AdminAuthSourceState}

theorem Restarted.prunedAt (h : Restarted record) (now : ℕ) :
    Restarted (prunedAt config now record) := by
  intro r hr
  obtain ⟨old, rfl, hold⟩ := Option.bind_eq_some_iff.1 hr
  simp only [AdminAuthSourceState.prune] at hold
  split_ifs at hold with hkeep
  cases hold
  rcases h old rfl with hfresh | ⟨hone, hnil⟩
  · exact Or.inl hfresh
  · refine Or.inr ⟨hone, ?_⟩
    simp only [hnil]
    rfl

/-- **The pruning that a source meets after its lockout removes the record, with the count of its
lockouts in it.** -/
theorem Restarted.fresh (h : Restarted record) {now : ℕ}
    (hend : lockedUntil record ≤ now) {r : AdminAuthSourceState}
    (hr : Admin.prunedAt config now record = some r) : r.lockouts = 0 ∧ r.lockedUntil = 0 := by
  obtain ⟨old, rfl, hold⟩ := Option.bind_eq_some_iff.1 hr
  have hle : old.lockedUntil ≤ now := hend
  simp only [AdminAuthSourceState.prune] at hold
  split_ifs at hold with hkeep
  cases hold
  rcases h old rfl with hfresh | ⟨hone, hnil⟩
  · exact hfresh
  · rw [hnil] at hkeep
    exact absurd hkeep (not_or.2 ⟨hle.not_gt, fun hne => hne rfl⟩)

/-- So the record that a failure is charged to counts no lockout. -/
theorem Restarted.atFailure (config : AdminAuthThrottleConfig) {state : AdminAuthThrottleState A}
    (h : Restarted (recordOf state a)) (hend : lockedUntil (recordOf state a) ≤ request.arrival) :
    ((recordAtFailure config a state request).getD {}).lockouts = 0 ∧
      ((recordAtFailure config a state request).getD {}).lockedUntil = 0 := by
  cases hr : recordAtFailure config a state request with
  | none => exact ⟨rfl, rfl⟩
  | some r =>
    obtain ⟨first, hfirst, hsecond⟩ := Option.bind_eq_some_iff.1 hr
    have hfresh := h.fresh hend hfirst
    simp only [AdminAuthSourceState.prune] at hsecond
    split_ifs at hsecond
    cases hsecond
    exact hfresh

/-- Charging such a record begins the first lockout of a fresh count, or none. -/
theorem restarted_charge (config : AdminAuthThrottleConfig) {r : AdminAuthSourceState}
    (hr : r.lockouts = 0 ∧ r.lockedUntil = 0) (now : ℕ) :
    Restarted (some (r.charge config now).1) ∧
      ((r.charge config now).1.lockedUntil = 0 ∨
        (r.charge config now).1.lockedUntil = saturatingAddU64 now (lockoutSecs config 1)) := by
  by_cases hfull : config.perSourceFailures ≤ r.failures.length + 1
  · rw [charge_of_le hfull, hr.1]
    exact ⟨fun _ h => Or.inr (by cases h; exact ⟨rfl, rfl⟩), Or.inr rfl⟩
  · rw [charge_of_lt (not_le.1 hfull)]
    exact ⟨fun _ h => Or.inl (by cases h; exact hr), Or.inl hr.2⟩

/-- What the watched lockouts of `a` have in common. -/
structure Restarts (config : AdminAuthThrottleConfig) (a : A) (w : Watch A) : Prop where
  record : Restarted (recordOf w.state a)
  lockouts : ∀ p ∈ w.lockouts, p.1 < p.2 ∧ p.2 = saturatingAddU64 p.1 (lockoutSecs config 1)

/-- What one request does to the record, and that a lockout it begins is the first of its count. -/
theorem restarted_handleWithSource (hen : config.enabled = true)
    (hmax : 0 < config.maxSources) (hw : Restarted (recordOf w.state a)) :
    Restarted (recordOf (handleWithSource config w.state request).1 a) ∧
      (Evaluated config a w request →
        lockedUntil (recordOf (handleWithSource config w.state request).1 a) = 0 ∨
        lockedUntil (recordOf (handleWithSource config w.state request).1 a) =
          saturatingAddU64 request.recorded (lockoutSecs config 1)) := by
  unfold Evaluated
  have hstep : SourceStep config a w.state request _ _ :=
    sourceStep_handleWithSource hen hmax
  generalize (handleWithSource config w.state request).2 = out at hstep ⊢
  generalize recordOf (handleWithSource config w.state request).1 a = after at hstep ⊢
  have htwice : Restarted (recordAtFailure config a w.state request) := (hw.prunedAt _).prunedAt _
  cases hstep with
  | throttled hsource hlocked => exact ⟨hw.prunedAt _, fun h => absurd h.2 Bool.false_ne_true⟩
  | counted failure scope hsource hverdict hopen hglobal =>
    have hcharge := restarted_charge config (hw.atFailure config hopen) request.recorded
    exact ⟨hcharge.1, fun _ => hcharge.2⟩
  | uncounted failure scope hsource hverdict hopen hglobal =>
    refine ⟨htwice, fun _ => Or.inl ?_⟩
    rw [← lockedUntil_getD]
    exact (hw.atFailure config hopen).2
  | cleared hsource => exact ⟨restarted_none, fun h => absurd h.2 Bool.false_ne_true⟩
  | passed out hown =>
    refine ⟨hw.prunedAt _, fun h => ?_⟩
    cases out with
    | failed failure scope => exact absurd rfl (hown h.1 failure scope)
    | throttled scope => exact absurd h.2 Bool.false_ne_true
    | forbidden => exact absurd h.2 Bool.false_ne_true
    | authorized auth => exact absurd h.2 Bool.false_ne_true
  | other out hsource => exact ⟨htwice, fun h => absurd h.1 hsource⟩
  | evicted out hsource hevict => exact ⟨restarted_none, fun h => absurd h.1 hsource⟩

theorem restarts_observe (hen : config.enabled = true) (hmax : 0 < config.maxSources)
    (hw : Restarts config a w) : Restarts config a (observe config a w request) := by
  obtain ⟨hrec, hlen⟩ := restarted_handleWithSource hen hmax hw.record
  refine ⟨by rw [observe_state]; exact hrec, ?_⟩
  simp only [observe]
  split_ifs with hev hlock
  · intro p hp
    rcases List.mem_append.1 hp with hp | hp
    · exact hw.lockouts p hp
    · rw [List.mem_singleton] at hp
      subst hp
      rcases hlen hev with hzero | hfirst
      · rw [hzero] at hlock
        exact absurd hlock (Nat.not_lt_zero _)
      · exact ⟨hlock, hfirst⟩
  · exact hw.lockouts
  · exact hw.lockouts

theorem handleWithSource_of_disabled (hoff : config.enabled = false)
    (state : AdminAuthThrottleState A) : (handleWithSource config state request).1 = state := by
  simp only [handleWithSource, preAuthCheck, recordFailure, recordSuccess, hoff]
  cases request.verdict with
  | inl failure => rfl
  | inr auth => cases auth <;> rfl

/-- A throttle that is off has nothing to watch. -/
theorem restarts_observe_of_disabled (hoff : config.enabled = false)
    (hw : Restarts config a w ∧ recordOf w.state a = none) :
    Restarts config a (observe config a w request) ∧
      recordOf (observe config a w request).state a = none := by
  obtain ⟨⟨hrec, hloc⟩, hnone⟩ := hw
  have hstate : (observe config a w request).state = w.state := by
    rw [observe_state, handleWithSource_of_disabled hoff]
  refine ⟨⟨by rw [hstate]; exact hrec, ?_⟩, by rw [hstate]; exact hnone⟩
  simp only [observe, handleWithSource_of_disabled hoff, hnone]
  split_ifs with hev hlock
  · exact absurd hlock (Nat.not_lt_zero _)
  · exact hloc
  · exact hloc

theorem restarts_watch (hconfig : config.validate = .ok ()) (requests : List (AdminRequest A)) :
    Restarts config a (watch config a requests) := by
  have hfirst : Restarts config a ({} : Watch A) := ⟨restarted_none, fun _ h => nomatch h⟩
  cases hen : config.enabled with
  | true =>
    have hmax := ((AdminAuthThrottleConfig.validate_eq_ok_iff hen).1 hconfig).sources_pos
    exact foldl_invariant (P := Restarts config a)
      (fun _ _ hw => restarts_observe hen hmax hw) hfirst requests
  | false =>
    exact (foldl_invariant (P := fun w => Restarts config a w ∧ recordOf w.state a = none)
      (fun _ _ hw => restarts_observe_of_disabled hen hw) ⟨hfirst, rfl⟩ requests).1

/-- The length of the first lockout of a count. -/
theorem lockoutSecs_one (start : ℕ) :
    saturatingAddU64 start (lockoutSecs config 1) =
      min (start + min config.baseLockoutSecs config.maxLockoutSecs) u64Max := by
  simp only [saturatingAddU64, lockoutSecs, saturatingMulU64, Nat.sub_self, Nat.zero_min, pow_zero,
    mul_one]
  omega

/-- **Every lockout of a source is as long as the first.**  The `k + 1`-st lockout that a run has
for `a` lasts the base length, which is what a progressive throttle would give it only if it is the
first, or if there is no room for longer ones. -/
theorem lockout_length (hconfig : config.validate = .ok ()) (requests : List (AdminRequest A))
    (k start stop : ℕ) (h : (watch config a requests).lockouts[k]? = some (start, stop)) :
    stop = min (start + min config.baseLockoutSecs config.maxLockoutSecs) u64Max ∧
      (start + min config.baseLockoutSecs config.maxLockoutSecs ≤ u64Max →
        (stop - start = min config.maxLockoutSecs (config.baseLockoutSecs * 2 ^ k) ↔
          k = 0 ∨ config.maxLockoutSecs ≤ config.baseLockoutSecs)) := by
  obtain ⟨hlt, hstop⟩ := (restarts_watch hconfig requests).lockouts _ (List.mem_of_getElem? h)
  rw [lockoutSecs_one] at hstop
  refine ⟨hstop, fun hfits => ?_⟩
  have hlen : stop - start = min config.baseLockoutSecs config.maxLockoutSecs := by omega
  rw [hlen]
  cases k with
  | zero => simp [min_comm]
  | succ k =>
    have hdouble : config.baseLockoutSecs * 2 ≤ config.baseLockoutSecs * 2 ^ (k + 1) :=
      Nat.mul_le_mul_left _ (Nat.le_self_pow (Nat.succ_ne_zero k) 2)
    generalize config.baseLockoutSecs * 2 ^ (k + 1) = progressive at hdouble
    omega

/-- One failure at a time, each right at the end of the lockout before. -/
def oneFailure : AdminAuthThrottleConfig := { perSourceFailures := 1 }

theorem lockout_length_second :
    (watch oneFailure 0 [wrongToken 0 0, wrongToken 0 30]).lockouts[1]? = some (30, 60) ∧
      (60 - 30 = min oneFailure.maxLockoutSecs (oneFailure.baseLockoutSecs * 2 ^ 1) ↔
        1 = 0 ∨ oneFailure.maxLockoutSecs ≤ oneFailure.baseLockoutSecs) :=
  ⟨by decide,
    (lockout_length (a := 0) (by decide) [wrongToken 0 0, wrongToken 0 30] 1 30 60
      (by decide)).2 (by decide)⟩

/-- The second lockout in a row is no longer than the first: thirty seconds, not sixty. -/
theorem lockout_not_progressive :
    let run := [wrongToken 0 0, wrongToken 0 30]
    oneFailure.validate = .ok () ∧
      Along (observe oneFailure 0) (Ordinary oneFailure 0) {} run ∧
      (watch oneFailure 0 run).lockouts = [(0, 30), (30, 60)] ∧
      60 - 30 ≠ min oneFailure.maxLockoutSecs (oneFailure.baseLockoutSecs * 2 ^ (2 - 1)) := by
  decide

end Fluxheim.Admin
