import Fluxheim.Balancer.RoundRobinShare

/-!
# The floor of passive health

Passive health takes a backend out after failures, unless that would leave fewer backends than a
floor.  Every test of an ejected backend counts the members left anew, with a pass that allows
backups and asks neither for priority, nor locality, nor slow start.
-/

namespace Fluxheim.Balancer.SelectionContext

open UpstreamLoadBalancer

variable (context : SelectionContext)

/-- The members that are eligible apart from ejection. -/
def eligibleApart : List FluxBackend :=
  context.snapshot.backends.filter (context.admits floorPass)

/-- Those of them that are not ejected. -/
def nonEjected (health : PassiveHealthState) : List FluxBackend :=
  context.eligibleApart.filter fun backend => !health.isEjected context.now backend

variable {context} {health : PassiveHealthState} {backend : FluxBackend} {s : SelectionState}

theorem nonEjectedCandidateCount_eq :
    context.nonEjectedCandidateCount health = (context.nonEjected health).length := by
  rw [nonEjectedCandidateCount, nonEjected, eligibleApart, List.filter_filter]
  simp only [Bool.and_comm]

/-- An ejected backend is let through while the floor is not reached without it. -/
theorem passiveHealthCandidateAllowed_iff (h : context.passiveHealth = some health) :
    context.passiveHealthCandidateAllowed backend = true ↔
      health.isEjected context.now backend = false ∨
        0 < health.minHealthyBackends ∧
          (context.nonEjected health).length < health.minHealthyBackends := by
  rw [passiveHealthCandidateAllowed, h, ← nonEjectedCandidateCount_eq]
  dsimp only
  cases heject : health.isEjected context.now backend <;> simp

theorem allowed_healthy {pass : SelectionPass} (h : (context.allowed pass backend s).1 = true) :
    context.passiveHealthCandidateAllowed backend = true := by
  simp only [allowed, backendCandidateAllowed, Bool.and_eq_true] at h
  exact h.2

theorem allowedBackends_floorPass :
    context.allowedBackends floorPass s =
      context.eligibleApart.filter context.passiveHealthCandidateAllowed := by
  rw [allowedBackends, eligibleApart, List.filter_filter]
  induction context.snapshot.backends generalizing s with
  | nil => rfl
  | cons b backends ih =>
    have hb : context.allowed floorPass b s =
        (context.admits floorPass b && context.passiveHealthCandidateAllowed b, s) := by
      rw [allowed, backendCandidateAllowed_ignoring rfl]
    rw [Cascade.filter, hb, List.filter_cons, Bool.and_comm]
    rw [ih]

/-- **An ejected backend is used only below the floor, and the floor is kept as far as there are
members**: in any pass an ejected candidate means that fewer others than the floor are eligible, and
the pass that counts them has as many candidates as the floor asks for, or all there are. -/
theorem passive_health_floor (context : SelectionContext) {health : PassiveHealthState}
    (h : context.passiveHealth = some health) (s : SelectionState) :
    (∀ pass t, ∀ backend ∈ context.allowedBackends pass t,
      health.isEjected context.now backend = true →
      0 < health.minHealthyBackends ∧
        (context.nonEjected health).length < health.minHealthyBackends) ∧
    min health.minHealthyBackends context.eligibleApart.length ≤
      (context.allowedBackends floorPass s).length := by
  refine ⟨?_, ?_⟩
  · intro pass t backend hbe heject
    obtain ⟨-, u, hallow⟩ := Cascade.mem_filter hbe
    have hhealthy := (passiveHealthCandidateAllowed_iff h).1 (allowed_healthy hallow)
    exact hhealthy.resolve_left (by simp [heject])
  · rw [allowedBackends_floorPass]
    by_cases hfloor : (context.nonEjected health).length < health.minHealthyBackends
    · -- below the floor everybody is let through
      have hall : context.eligibleApart.filter context.passiveHealthCandidateAllowed =
          context.eligibleApart := by
        refine List.filter_eq_self.2 fun b _ => (passiveHealthCandidateAllowed_iff h).2 (Or.inr ?_)
        exact ⟨Nat.zero_lt_of_lt hfloor, hfloor⟩
      rw [hall]
      exact min_le_right _ _
    · -- those not ejected are enough
      refine (min_le_left _ _).trans ((not_lt.1 hfloor).trans ?_)
      refine List.Sublist.length_le (List.monotone_filter_right _ fun b hb => ?_)
      exact (passiveHealthCandidateAllowed_iff h).2 (Or.inl (by simpa using hb))

/-- The lone backend is ejected, and used all the same. -/
theorem passive_health_floor_lone :
    let health : PassiveHealthState :=
      ⟨1, (∅ : AList fun _ : Key => PassiveBackendHealth).insert
        (backendKey UpstreamLoadBalancer.loneBackend) ⟨some 1⟩⟩
    let context :=
      { loneContext UpstreamLoadBalancer.plainPolicy with passiveHealth := some health }
    UpstreamLoadBalancer.loneBackend ∈ context.allowedBackends floorPass steadyState ∧
      health.isEjected context.now UpstreamLoadBalancer.loneBackend = true ∧
      (context.nonEjected health).length < 1 ∧
      min 1 context.eligibleApart.length ≤
        (context.allowedBackends floorPass steadyState).length := by
  intro health context
  have hmem : loneBackend ∈
      context.allowedBackends floorPass steadyState := by decide +kernel
  have heject : health.isEjected context.now loneBackend = true := by
    decide +kernel
  obtain ⟨hused, hleft⟩ := passive_health_floor context rfl steadyState
  exact ⟨hmem, heject, (hused floorPass steadyState _ hmem heject).2, hleft⟩

end Fluxheim.Balancer.SelectionContext
