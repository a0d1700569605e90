import Mathlib.Data.Nat.Count
import Fluxheim.Balancer.SelectionCoverage

/-!
# The shares of a weighted round robin

While the allowed backends and their weights stay as they are, the cursor goes round the total
weight, and every backend is chosen as often as it has weight.  Everything but the cursor may change
between two selections: the time, the counters, slow start, health.
-/

namespace Fluxheim.Balancer.SelectionContext

open List UpstreamLoadBalancer

/-- The backends with their weights. -/
def weighted (weight : FluxBackend → ℕ) (backends : List FluxBackend) : List (FluxBackend × ℕ) :=
  backends.map fun backend => (backend, weight backend)

section Targets

variable {weight : FluxBackend → ℕ} {backends : List FluxBackend} {backend : FluxBackend}

theorem mem_of_weightedCandidate_weighted {target : ℕ}
    (h : weightedCandidate (weighted weight backends) target = some backend) :
    backend ∈ backends := by
  obtain ⟨w, hw⟩ := mem_of_weightedCandidate h
  obtain ⟨b, hb, heq⟩ := mem_map.1 hw
  rwa [← (Prod.mk.inj heq).1]

theorem exists_weightedCandidate_weighted {target : ℕ} (h : target < (backends.map weight).sum) :
    ∃ backend ∈ backends, weightedCandidate (weighted weight backends) target = some backend := by
  have hne : weightedCandidate (weighted weight backends) target ≠ none := by
    apply weightedCandidate_ne_none
    rwa [weighted, map_map]
  obtain ⟨backend, hbe⟩ := Option.ne_none_iff_exists'.1 hne
  exact ⟨backend, mem_of_weightedCandidate_weighted hbe, hbe⟩

theorem count_weightedCandidate_of_not_mem (h : backend ∉ backends) (n : ℕ) :
    Nat.count (fun target => weightedCandidate (weighted weight backends) target = some backend) n =
      0 := by
  rw [Nat.count_iff_forall_not]
  intro target _ hchosen
  exact h (mem_of_weightedCandidate_weighted hchosen)

/-- Of the targets below the total weight, each backend has as many as its weight. -/
theorem count_weightedCandidate (hnod : backends.Nodup) (hmem : backend ∈ backends) :
    Nat.count (fun target => weightedCandidate (weighted weight backends) target = some backend)
      (backends.map weight).sum = weight backend := by
  induction backends with
  | nil => cases hmem
  | cons first backends ih =>
    obtain ⟨hfirst, hnod⟩ := nodup_cons.1 hnod
    have hbelow : ∀ target < weight first,
        weightedCandidate (weighted weight (first :: backends)) target = some first := by
      intro target h
      exact if_pos h
    have habove : ∀ target,
        weightedCandidate (weighted weight (first :: backends)) (weight first + target) =
          weightedCandidate (weighted weight backends) target := by
      intro target
      refine (if_neg (by omega)).trans ?_
      rw [Nat.add_sub_cancel_left]
      rfl
    rw [map_cons, sum_cons, Nat.count_add]
    simp only [habove]
    rcases mem_cons.1 hmem with rfl | hmem
    · rw [count_weightedCandidate_of_not_mem hfirst, add_zero, Nat.count_iff_forall]
      exact fun target h => hbelow target h
    · have hne : first ≠ backend := fun h => hfirst (h ▸ hmem)
      rw [ih hnod hmem, add_eq_right, Nat.count_iff_forall_not]
      intro target h hchosen
      exact hne (Option.some.inj ((hbelow target h).symm.trans hchosen))

/-- The total of the code is the sum while that is a machine number. -/
theorem saturatingTotal_eq {candidates : List (FluxBackend × ℕ)} {start : ℕ}
    (h : start + (candidates.map Prod.snd).sum ≤ USIZE_MAX) :
    candidates.foldl (fun total c => min USIZE_MAX (total + c.2)) start =
      start + (candidates.map Prod.snd).sum := by
  induction candidates generalizing start with
  | nil => rfl
  | cons c candidates ih =>
    rw [map_cons, sum_cons] at h ⊢
    rw [foldl_cons, min_eq_right (by omega), ih (by omega), add_assoc]

end Targets

/-- The backends that a pass allows. -/
def allowedBackends (context : SelectionContext) (pass : SelectionPass) (s : SelectionState) :
    List FluxBackend :=
  (Cascade.filter (context.allowed pass) context.snapshot.backends s).1

/-- The test of the candidates leaves the cursor alone. -/
theorem filter_allowed_cursor (context : SelectionContext) (pass : SelectionPass)
    (backends : List FluxBackend) (s : SelectionState) :
    (Cascade.filter (context.allowed pass) backends s).2.roundRobinCursor = s.roundRobinCursor := by
  induction backends generalizing s with
  | nil => rfl
  | cons backend backends ih =>
    exact ih _

variable {context : SelectionContext} {pass : SelectionPass} {s : SelectionState}
  {backends : List FluxBackend} {weight : FluxBackend → ℕ}

theorem selectWeightedRoundRobinWithBackupPolicy_eq
    (hbes : context.allowedBackends pass s = backends)
    (hweight : ∀ b ∈ backends, context.backendPolicy.effectiveWeight b = weight b)
    (hpos : 0 < (backends.map weight).sum) (hfit : (backends.map weight).sum ≤ USIZE_MAX) :
    (context.selectWeightedRoundRobinWithBackupPolicy pass s).1 =
        weightedCandidate (weighted weight backends)
          (s.roundRobinCursor.toNat % (backends.map weight).sum) ∧
      (context.selectWeightedRoundRobinWithBackupPolicy pass s).2.roundRobinCursor =
        s.roundRobinCursor + 1 := by
  have hcan : (context.allowedBackends pass s).map
      (fun b => (b, context.backendPolicy.effectiveWeight b)) = weighted weight backends := by
    rw [hbes]
    exact map_congr_left fun b hb => by rw [hweight b hb]
  have hsum : ((weighted weight backends).map Prod.snd).sum = (backends.map weight).sum := by
    rw [weighted, map_map]
    rfl
  have htotal : (weighted weight backends).foldl (fun total c => min USIZE_MAX (total + c.2)) 0 =
      (backends.map weight).sum := by
    rw [saturatingTotal_eq (by rwa [hsum, zero_add]), hsum, zero_add]
  have hcur := filter_allowed_cursor context pass context.snapshot.backends s
  rw [allowedBackends] at hcan
  rw [selectWeightedRoundRobinWithBackupPolicy]
  rw [hcan, htotal, if_neg (by omega), hcur]
  exact ⟨rfl, rfl⟩

theorem count_congr {p q : ℕ → Prop} [DecidablePred p] [DecidablePred q] {n : ℕ}
    (h : ∀ i < n, (p i ↔ q i)) : Nat.count p n = Nat.count q n := by
  rw [Nat.count_eq_card_filter_range, Nat.count_eq_card_filter_range]
  exact congrArg Finset.card (Finset.filter_congr fun i hi => h i (mem_range.1 hi))

/-- A whole period has the same count wherever it starts. -/
theorem count_of_periodic {p : ℕ → Prop} [DecidablePred p] {n : ℕ} (start : ℕ)
    (h : ∀ i, p (n + i) ↔ p i) : Nat.count (fun i => p (start + i)) n = Nat.count p n := by
  have hfront := Nat.count_add p start n
  have hback := Nat.count_add p n start
  rw [count_congr fun i _ => h i] at hback
  rw [add_comm n start] at hback
  omega

/-- The cursor after a number of selections that did not wrap it. -/
theorem cursor_eq {cur : ℕ → UInt64} {n : ℕ} (hstep : ∀ i < n, cur (i + 1) = cur i + 1)
    (hwrap : (cur 0).toNat + n < 2 ^ 64) : ∀ i ≤ n, (cur i).toNat = (cur 0).toNat + i := by
  intro i
  induction i with
  | zero => exact fun _ => rfl
  | succ i ih =>
    intro hi
    have hone : (1 : UInt64).toNat = 1 := rfl
    rw [hstep i hi, UInt64.toNat_add, ih (by omega), hone, Nat.mod_eq_of_lt (by omega),
      add_assoc]

/-- **While the allowed backends and their weights stay the same, as many weighted round-robin
selections of one pass as the total weight choose every allowed backend as often as its weight**,
and choose nothing else, unless the shared cursor wraps on the way. -/
theorem weighted_round_robin_share (pass : SelectionPass) (contexts : ℕ → SelectionContext)
    (states : ℕ → SelectionState) (allowed : List FluxBackend) (weight : FluxBackend → ℕ)
    (hset : allowed.Nodup) (hpos : 0 < (allowed.map weight).sum)
    (hallowed : ∀ i < (allowed.map weight).sum,
      (contexts i).allowedBackends pass (states i) = allowed)
    (hweight : ∀ i < (allowed.map weight).sum, ∀ backend ∈ allowed,
      (contexts i).backendPolicy.effectiveWeight backend = weight backend)
    (hcursor : ∀ i < (allowed.map weight).sum, (states (i + 1)).roundRobinCursor =
      ((contexts i).selectWeightedRoundRobinWithBackupPolicy pass (states i)).2.roundRobinCursor)
    (hwrap : (states 0).roundRobinCursor.toNat + (allowed.map weight).sum < 2 ^ 64) :
    (∀ backend ∈ allowed, Nat.count
      (fun i => ((contexts i).selectWeightedRoundRobinWithBackupPolicy pass (states i)).1 =
        some backend) (allowed.map weight).sum = weight backend) ∧
    ∀ i < (allowed.map weight).sum, ∃ backend ∈ allowed,
      ((contexts i).selectWeightedRoundRobinWithBackupPolicy pass (states i)).1 =
        some backend := by
  generalize htotal : (allowed.map weight).sum = total at hpos hallowed hweight hcursor hwrap ⊢
  have hfit : total ≤ USIZE_MAX := by
    have : USIZE_MAX = 2 ^ 64 - 1 := rfl
    omega
  have hturn : ∀ i < total,
      ((contexts i).selectWeightedRoundRobinWithBackupPolicy pass (states i)).1 =
          weightedCandidate (weighted weight allowed)
            ((states i).roundRobinCursor.toNat % total) ∧
        (states (i + 1)).roundRobinCursor = (states i).roundRobinCursor + 1 := by
    intro i hi
    have h := selectWeightedRoundRobinWithBackupPolicy_eq (hallowed i hi) (hweight i hi)
      (htotal ▸ hpos) (htotal ▸ hfit)
    rw [htotal] at h
    exact ⟨h.1, (hcursor i hi).trans h.2⟩
  have hat := @cursor_eq (fun i => (states i).roundRobinCursor) total
    (fun i hi => (hturn i hi).2) hwrap
  have hchosen : ∀ i < total,
      ((contexts i).selectWeightedRoundRobinWithBackupPolicy pass (states i)).1 =
        weightedCandidate (weighted weight allowed)
          (((states 0).roundRobinCursor.toNat + i) % total) := by
    intro i hi
    rw [(hturn i hi).1, hat i hi.le]
  constructor
  · intro backend hmem
    -- the targets of the run are those of one round, from wherever it starts
    rw [count_congr fun i hi => by rw [hchosen i hi],
      count_of_periodic (p := fun n => weightedCandidate (weighted weight allowed) (n % total) =
        some backend) (states 0).roundRobinCursor.toNat fun n => by rw [Nat.add_mod_left],
      count_congr fun i hi => by rw [Nat.mod_eq_of_lt hi], ← htotal]
    exact count_weightedCandidate hset hmem
  · intro i hi
    rw [hchosen i hi]
    subst htotal
    exact exists_weightedCandidate_weighted (Nat.mod_lt _ hpos)

/-- A second backend, of weight two. -/
def heavyBackend : FluxBackend := ⟨{ ip := Ascii.ascii "10.0.0.2", port := 80 }, 2⟩

/-- Two members of different weight. -/
def pairContext : SelectionContext :=
  { loneContext UpstreamLoadBalancer.plainPolicy with
    snapshot := ⟨[UpstreamLoadBalancer.loneBackend, heavyBackend], ∅, false⟩ }

theorem weighted_round_robin_share_pair :
    let chosen := fun i : ℕ => (pairContext.selectWeightedRoundRobinWithBackupPolicy floorPass
      { steadyState with roundRobinCursor := UInt64.ofNat (7 + i) }).1
    Nat.count (fun i => chosen i = some heavyBackend) 3 = 2 := by
  exact (weighted_round_robin_share floorPass (fun _ => pairContext)
    (fun i => { steadyState with roundRobinCursor := UInt64.ofNat (7 + i) })
    [loneBackend, heavyBackend] FluxBackend.weight
    (by decide +kernel) (by decide +kernel) (by decide +kernel) (by decide +kernel)
    (by decide +kernel) (by decide +kernel)).1 heavyBackend (by decide +kernel)

end Fluxheim.Balancer.SelectionContext
