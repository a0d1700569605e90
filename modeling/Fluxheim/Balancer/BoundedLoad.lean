import Mathlib.Algebra.BigOperators.Group.List.Basic
import Mathlib.Algebra.Order.BigOperators.Group.List
import Fluxheim.Balancer.Rendezvous

/-!
# Consistent hashing with bounded load

A backend is passed over while its requests in flight are more than its share of all of them, times
a factor.  Not all backends can be above their share, so with a factor of at least one the search
ends at a backend under its bound, unless the totals or the products reach the largest number.
-/

namespace Fluxheim.Balancer.SelectionContext

open Ascii List UpstreamLoadBalancer

variable (context : SelectionContext)

/-- The eligible backends of a pass. -/
def eligibleBackends (pass : SelectionPass) (s : SelectionState) : List FluxBackend :=
  context.snapshot.backends.filter (context.backendCandidateAllowedReadOnly pass s.slowStart)

variable (backends : List FluxBackend)

/-- All requests in flight. -/
def totalCount : ℕ :=
  (backends.map context.counters.count).sum

/-- The sum of the weights. -/
def totalWeight : ℕ :=
  (backends.map context.backendPolicy.effectiveWeight).sum

/-- The requests of a backend are at most its share by weight of all of them, times the factor. -/
def UnderBound (factorPerMille : ℕ) (backend : FluxBackend) : Prop :=
  context.counters.count backend * context.totalWeight backends * 1000 ≤
    context.totalCount backends * context.backendPolicy.effectiveWeight backend * factorPerMille

/-- No number of the comparison goes beyond the largest of its type. -/
structure Unsaturated (context : SelectionContext) (backends : List FluxBackend)
    (factorPerMille : ℕ) : Prop where
  count : context.totalCount backends ≤ USIZE_MAX
  weight : context.totalWeight backends ≤ USIZE_MAX
  product : context.totalCount backends * context.totalWeight backends * factorPerMille ≤ U128_MAX

variable {context backends} {pass : SelectionPass} {s : SelectionState}
  {inputs : LoadBalancerSelectInputs} {factorPerMille : ℕ} {backend : FluxBackend}

/-- Not every backend is above its share. -/
theorem exists_under_share (context : SelectionContext) (hne : backends ≠ [])
    (hfactor : 1000 ≤ factorPerMille) :
    ∃ b ∈ backends, context.UnderBound backends factorPerMille b := by
  -- summed over all backends, the two sides differ by the factor alone
  refine exists_le_of_sum_le hne _ _ ?_
  have hcount : (backends.map fun b =>
      context.counters.count b * context.totalWeight backends * 1000).sum =
        context.totalCount backends * context.totalWeight backends * 1000 := by
    rw [totalCount, ← sum_map_mul_right, ← sum_map_mul_right]
  have hweights : (backends.map fun b =>
      context.totalCount backends * context.backendPolicy.effectiveWeight b * factorPerMille).sum =
        context.totalCount backends * context.totalWeight backends * factorPerMille := by
    rw [totalWeight, ← sum_map_mul_left, ← sum_map_mul_right]
  calc _ = context.totalCount backends * context.totalWeight backends * 1000 := hcount
    _ ≤ context.totalCount backends * context.totalWeight backends * factorPerMille :=
        Nat.mul_le_mul_left _ hfactor
    _ = _ := hweights.symm

theorem count_le_totalCount (context : SelectionContext) (h : backend ∈ backends) :
    context.counters.count backend ≤ context.totalCount backends :=
  single_le_sum (fun _ _ => Nat.zero_le _) _ (mem_map_of_mem h)

theorem weight_le_totalWeight (context : SelectionContext) (h : backend ∈ backends) :
    context.backendPolicy.effectiveWeight backend ≤ context.totalWeight backends :=
  single_le_sum (fun _ _ => Nat.zero_le _) _ (mem_map_of_mem h)

theorem saturatingSum_eq {f : FluxBackend → ℕ} (h : (backends.map f).sum ≤ USIZE_MAX) :
    backends.foldl (fun total b => min USIZE_MAX (total + f b)) 0 = (backends.map f).sum := by
  have htotal : (weighted f backends).foldl (fun total c => min USIZE_MAX (total + c.2)) 0 =
      0 + ((weighted f backends).map Prod.snd).sum :=
    saturatingTotal_eq (by simpa [weighted, Function.comp_def] using h)
  simpa [weighted, foldl_map, Function.comp_def] using htotal

theorem boundedLoadSnapshot_eq
    (h : context.Unsaturated (context.eligibleBackends pass s) factorPerMille) :
    context.boundedLoadSnapshot pass factorPerMille s.slowStart =
      if 0 < context.totalWeight (context.eligibleBackends pass s) ∧
          0 < context.totalCount (context.eligibleBackends pass s) then
        some ⟨context.totalCount (context.eligibleBackends pass s),
          context.totalWeight (context.eligibleBackends pass s), factorPerMille⟩
      else none := by
  rw [boundedLoadSnapshot, ← eligibleBackends, saturatingSum_eq h.count, saturatingSum_eq h.weight]
  rfl

theorem boundedLoadPermits_iff (h : context.Unsaturated backends factorPerMille)
    (hfactor : 1000 ≤ factorPerMille) (hmem : backend ∈ backends) :
    context.boundedLoadPermits
      ⟨context.totalCount backends, context.totalWeight backends, factorPerMille⟩ backend = true ↔
      context.UnderBound backends factorPerMille backend := by
  -- no product is more than that of the totals
  have hcount := count_le_totalCount context hmem
  have hweight := weight_le_totalWeight context hmem
  have hleft : context.counters.count backend * context.totalWeight backends * 1000 ≤ U128_MAX :=
    le_trans (Nat.mul_le_mul (Nat.mul_le_mul_right _ hcount) hfactor) h.product
  have hright : context.totalCount backends * context.backendPolicy.effectiveWeight backend *
      factorPerMille ≤ U128_MAX :=
    le_trans (Nat.mul_le_mul_right _ (Nat.mul_le_mul_left _ hweight)) h.product
  have hleft' := (Nat.le_mul_of_pos_right (context.counters.count backend *
    context.totalWeight backends) (by omega : 0 < 1000)).trans hleft
  have hright' := (Nat.le_mul_of_pos_right (context.totalCount backends *
    context.backendPolicy.effectiveWeight backend) (by omega : 0 < factorPerMille)).trans hright
  rw [boundedLoadPermits]
  simp only [min_eq_right hleft', min_eq_right hleft, min_eq_right hright',
    min_eq_right hright, decide_eq_true_eq]
  rfl

/-- Without slow start the search is that of a list. -/
theorem selectConsistentHash_steady_eq (h : pass.ignoreSlowStart = true ∨ s.slowStart = none)
    (hlimit : context.snapshot.backends.length ≤ inputs.maxIterations)
    (bound : Option BoundedLoadSnapshot) :
    (context.selectConsistentHashWithBackupPolicy inputs bound pass s).1 =
      (context.consistentHashCandidates inputs.secrets.consistent (inputs.key.getD [])).find?
        fun b => context.backendCandidateAllowedReadOnly pass s.slowStart b &&
          bound.all (context.boundedLoadPermits · b) := by
  have hperm := context.perm_consistentHashCandidates inputs.secrets.consistent
    (inputs.key.getD [])
  rw [selectConsistentHashWithBackupPolicy, take_of_length_le (by rw [hperm.length_eq]; omega)]
  refine Cascade.find_eq_find? fun asked _ b _ => ?_
  have hstate : Cascade.after (fun backend s =>
      ((context.allowed pass backend s).1 && bound.all (context.boundedLoadPermits · backend),
        (context.allowed pass backend s).2)) asked s = s := after_steady h asked
  rw [hstate, allowed_steady h]

theorem mem_eligibleBackends_of_find? {p : FluxBackend → Bool} {sec : UInt64} {key : Bytes}
    (h : (context.consistentHashCandidates sec key).find? (fun b =>
      context.backendCandidateAllowedReadOnly pass s.slowStart b && p b) = some backend) :
    backend ∈ context.eligibleBackends pass s ∧ p backend = true := by
  have hyes := find?_some h
  rw [Bool.and_eq_true] at hyes
  refine ⟨mem_filter.2 ⟨?_, hyes.1⟩, hyes.2⟩
  exact (context.perm_consistentHashCandidates sec key).mem_iff.1 (mem_of_find?_eq_some h)

theorem exists_find?_of_mem_eligible (p : FluxBackend → Bool) {sec : UInt64} {key : Bytes}
    (hmem : backend ∈ context.eligibleBackends pass s) (hyes : p backend = true) :
    ∃ found, (context.consistentHashCandidates sec key).find? (fun b =>
      context.backendCandidateAllowedReadOnly pass s.slowStart b && p b) = some found := by
  rw [← Option.isSome_iff_exists, find?_isSome]
  obtain ⟨hbe, helig⟩ := mem_filter.1 hmem
  exact ⟨backend, (context.perm_consistentHashCandidates sec key).mem_iff.2 hbe,
    by simp [helig, hyes]⟩

/-- **The selected backend is under its bound**, and the search with the bound has found it. -/
theorem bounded_load_selected_under_bound (context : SelectionContext)
    (inputs : LoadBalancerSelectInputs) (factorPerMille : ℕ) (pass : SelectionPass)
    (s : SelectionState) (hslow : pass.ignoreSlowStart = true ∨ s.slowStart = none)
    (hlimit : context.snapshot.backends.length ≤ inputs.maxIterations)
    (hfactor : 1000 ≤ factorPerMille) (hne : context.eligibleBackends pass s ≠ [])
    (hfits : context.Unsaturated (context.eligibleBackends pass s) factorPerMille) :
    ∃ backend ∈ context.eligibleBackends pass s,
      (context.selectBoundedLoadConsistentWithBackupPolicy inputs factorPerMille pass s).1 =
        some backend ∧
      context.UnderBound (context.eligibleBackends pass s) factorPerMille backend ∧
      ∀ bound, context.boundedLoadSnapshot pass factorPerMille s.slowStart = some bound →
        (context.selectConsistentHashWithBackupPolicy inputs (some bound) pass s).1 =
          some backend := by
  have hsnap := boundedLoadSnapshot_eq hfits
  obtain ⟨light, hlight, hunder⟩ := context.exists_under_share hne hfactor
  have hweight : 0 < context.totalWeight (context.eligibleBackends pass s) :=
    lt_of_lt_of_le (context.backendPolicy.effectiveWeight_pos light)
      (weight_le_totalWeight context hlight)
  rw [selectBoundedLoadConsistentWithBackupPolicy]
  split_ifs at hsnap with hpos
  · -- somebody is under the bound, so the search with the bound finds somebody
    obtain ⟨found, hfound⟩ := exists_find?_of_mem_eligible _ hlight
      ((boundedLoadPermits_iff hfits hfactor hlight).2 hunder)
    obtain ⟨hmem, hper⟩ := mem_eligibleBackends_of_find? hfound
    have hsel := (selectConsistentHash_steady_eq hslow hlimit (some _)).trans hfound
    refine ⟨found, hmem, ?_, (boundedLoadPermits_iff hfits hfactor hmem).1 hper, ?_⟩
    · rw [hsnap]
      dsimp only
      split
      · next heq => rwa [heq] at hsel
      · next heq => simp [heq] at hsel
    · intro bound hbound
      obtain rfl := Option.some.inj (hsnap.symm.trans hbound)
      exact hsel
  · -- nobody has a request in flight
    obtain ⟨found, hfound⟩ := exists_find?_of_mem_eligible
      (fun b => (none : Option BoundedLoadSnapshot).all (context.boundedLoadPermits · b)) hlight rfl
    obtain ⟨hmem, -⟩ := mem_eligibleBackends_of_find? hfound
    refine ⟨found, hmem, ?_, ?_, ?_⟩
    · rw [hsnap]
      exact (selectConsistentHash_steady_eq hslow hlimit none).trans hfound
    · have hcount := count_le_totalCount context hmem
      rw [UnderBound, show context.counters.count found = 0 by omega]
      simp
    · intro bound hbound
      exact absurd (hsnap.symm.trans hbound) (by simp)

/-- A request for `/a`. -/
def boundedInputs : LoadBalancerSelectInputs := ⟨some (ascii "/a"), 2, ∅, ⟨0, 0, 0⟩⟩

theorem bounded_load_selected_under_bound_pair :
    let context := { pairContext with counters := fun _ => 1 }
    ∃ backend ∈ context.eligibleBackends floorPass steadyState,
      (context.selectBoundedLoadConsistentWithBackupPolicy boundedInputs 1000 floorPass
        steadyState).1 = some backend ∧
      context.UnderBound (context.eligibleBackends floorPass steadyState) 1000 backend := by
  intro context
  have hfits : context.Unsaturated (context.eligibleBackends floorPass steadyState) 1000 :=
    ⟨by decide +kernel, by decide +kernel, by decide +kernel⟩
  obtain ⟨backend, hmem, hsel, hunder, -⟩ := bounded_load_selected_under_bound context
    boundedInputs 1000 floorPass steadyState (Or.inl rfl) (by decide +kernel) le_rfl
    (by decide +kernel) hfits
  exact ⟨backend, hmem, hsel, hunder⟩

/-- A backend of weight one, next to the lone one. -/
def otherBackend : FluxBackend := { heavyBackend with weight := 1 }

/-- The lone backend has as many requests as a counter can hold, and the other one less. -/
def crowdedContext : SelectionContext :=
  { loneContext UpstreamLoadBalancer.plainPolicy with
    snapshot := ⟨[UpstreamLoadBalancer.loneBackend, otherBackend], ∅, false⟩
    counters := fun key =>
      if key = backendKey UpstreamLoadBalancer.loneBackend then USIZE_MAX else USIZE_MAX - 1 }

theorem bounded_load_exceeded :
    (crowdedContext.selectBoundedLoadConsistentWithBackupPolicy boundedInputs 1000 floorPass
      steadyState).1 = some UpstreamLoadBalancer.loneBackend ∧
    UpstreamLoadBalancer.loneBackend ∈ crowdedContext.eligibleBackends floorPass steadyState ∧
    ¬ crowdedContext.UnderBound (crowdedContext.eligibleBackends floorPass steadyState) 1000
      UpstreamLoadBalancer.loneBackend := by
  unfold UnderBound
  decide +kernel

end Fluxheim.Balancer.SelectionContext
