import Fluxheim.Balancer.Upstream

/-!
# Every selected backend may be used

Whatever the algorithm, a backend comes out of a selection only through the test of a candidate
(`Offered`), and out of the pool only with a permit.
-/

namespace Fluxheim.Balancer

open List Option

/-- The backend is in the pool, ready, and not taken out of use. -/
structure Offered (snapshot : BackendContainerSnapshot) (policy : BackendSelectionPolicy)
    (backend : FluxBackend) : Prop where
  member : backend ∈ snapshot.backends
  ready : snapshot.ready backend = true
  enabled : policy.isDisabled (backendKey backend) = false
  undrained : policy.isDrained (backendKey backend) = false

/-! ### The algorithms -/

namespace SelectionContext

variable {context : SelectionContext} {pass : SelectionPass} {backend : FluxBackend}
  {s : SelectionState}

/-- All that a selection takes from a test. -/
abbrev offers (context : SelectionContext) (backend : FluxBackend) : Prop :=
  Offered context.snapshot context.backendPolicy backend

theorem offered_of_admits (hmem : backend ∈ context.snapshot.backends)
    (h : context.admits pass backend = true) : context.offers backend := by
  simp only [admits, BackendSelectionPolicy.permits, Bool.and_eq_true, Bool.not_eq_true'] at h
  exact ⟨hmem, h.1, h.2.1.1.1.1.1, h.2.1.1.1.1.2⟩

theorem offered_of_allowed (hmem : backend ∈ context.snapshot.backends)
    (h : (context.allowed pass backend s).1 = true) : context.offers backend := by
  have hadmits : context.admits pass backend = true := by
    by_contra hno
    simp [allowed, backendCandidateAllowed, backendCandidateBaseAllowed, hno] at h
  exact offered_of_admits hmem hadmits

theorem offered_of_randomCandidateAllowed {exclude : Option Key}
    {state : Finset Key × SelectionState} (hmem : backend ∈ context.snapshot.backends)
    (h : (context.randomCandidateAllowed pass exclude backend state).1 = true) :
    context.offers backend := by
  rw [randomCandidateAllowed] at h
  split_ifs at h
  exact offered_of_allowed hmem h

/-- A pass that offers only usable backends is enough. -/
theorem overPasses_offered {withBackupPolicy : SelectionPass → Choice}
    (hpass : ∀ pass s backend, (withBackupPolicy pass s).1 = some backend →
      context.offers backend)
    (h : (context.overPasses withBackupPolicy s).1 = some backend) : context.offers backend := by
  obtain ⟨pass, -, t, ht⟩ := Cascade.firstSome_some h
  split_ifs at ht
  exact hpass pass t backend ht

theorem mem_of_weightedCandidate {candidates : List (FluxBackend × ℕ)} {target : ℕ}
    (h : weightedCandidate candidates target = some backend) :
    ∃ weight, (backend, weight) ∈ candidates := by
  induction candidates generalizing target with
  | nil => simp [weightedCandidate] at h
  | cons c candidates ih =>
    obtain ⟨first, weight⟩ := c
    rw [weightedCandidate] at h
    split_ifs at h
    · obtain rfl : first = backend := by simpa using h
      exact ⟨weight, mem_cons_self⟩
    · obtain ⟨w, hw⟩ := ih h
      exact ⟨w, mem_cons_of_mem _ hw⟩

theorem selectWeightedRoundRobinWithBackupPolicy_offered
    (h : (context.selectWeightedRoundRobinWithBackupPolicy pass s).1 = some backend) :
    context.offers backend := by
  rw [selectWeightedRoundRobinWithBackupPolicy] at h
  split_ifs at h
  obtain ⟨weight, hw⟩ := mem_of_weightedCandidate h
  obtain ⟨b, hb, heq⟩ := mem_map.1 hw
  obtain ⟨rfl, -⟩ := Prod.mk.inj heq
  obtain ⟨hmem, t, ht⟩ := Cascade.mem_filter hb
  exact offered_of_allowed hmem ht

/-- The best so far is always one that has passed. -/
theorem leastLoop_offered {γ : Type} {score : FluxBackend → γ} {isLower : γ → γ → Bool}
    {backends : List FluxBackend} {selected : Option (FluxBackend × γ)}
    (hsub : ∀ b ∈ backends, b ∈ context.snapshot.backends)
    (hsel : ∀ best ∈ selected, context.offers best.1)
    (h : (leastLoop (context.allowed pass) score isLower backends selected s).1 = some backend) :
    context.offers backend := by
  induction backends generalizing selected s with
  | nil =>
    obtain ⟨best, hbest, rfl⟩ := map_eq_some_iff.1 h
    exact hsel best hbest
  | cons b backends ih =>
    refine ih (fun c hc => hsub c (mem_cons_of_mem _ hc)) ?_ h
    intro best hbest
    split_ifs at hbest with hb
    · obtain rfl : (b, score b) = best := by simpa using hbest
      rw [Bool.and_eq_true] at hb
      exact offered_of_allowed (hsub b mem_cons_self) hb.1
    · exact hsel best hbest

theorem selectLeastWithBackupPolicy_offered {γ : Type} {score : FluxBackend → γ}
    {isLower : γ → γ → Bool}
    (h : (context.selectLeastWithBackupPolicy score isLower pass s).1 = some backend) :
    context.offers backend :=
  leastLoop_offered (fun _ hb => hb) (by simp) h

/-- A search among members of the pool with one of the two tests. -/
theorem find_offered {σ : Type} {test : FluxBackend → σ → Bool × σ} {state : σ}
    {candidates : List FluxBackend} (hsub : ∀ b ∈ candidates, b ∈ context.snapshot.backends)
    (htest : ∀ b ∈ context.snapshot.backends, ∀ t, (test b t).1 = true → context.offers b)
    (h : (Cascade.find test candidates state).1 = some backend) : context.offers backend := by
  obtain ⟨hmem, t, ht⟩ := Cascade.find_some h
  exact htest backend (hsub backend hmem) t ht

theorem mem_of_mem_rotation {backends : List FluxBackend} {start count : ℕ}
    (h : backend ∈ rotation backends start count) : backend ∈ backends := by
  obtain ⟨off, -, ho⟩ := mem_filterMap.1 h
  exact mem_of_getElem? ho

theorem selectWeightedRandomCandidate_offered {maxI : ℕ} {exclude : Option Key}
    (h : (context.selectWeightedRandomCandidate maxI pass exclude s).1 =
      some backend) : context.offers backend := by
  rw [selectWeightedRandomCandidate] at h
  dsimp only at h
  split_ifs at h
  · refine find_offered ?_ (fun b hb t => offered_of_randomCandidateAllowed hb) h
    intro b hb
    obtain ⟨i, -, hi⟩ := bind_eq_some_iff.1 (mem_toList.1 hb)
    exact mem_of_getElem? hi
  · exact find_offered (fun b hb => mem_of_mem_rotation hb)
      (fun b hb t => offered_of_randomCandidateAllowed hb) h

theorem selectPowerOfTwoWithBackupPolicy_offered {maxI : ℕ}
    (h : (context.selectPowerOfTwoWithBackupPolicy maxI pass s).1 = some backend) :
    context.offers backend := by
  rw [selectPowerOfTwoWithBackupPolicy] at h
  rcases hfirst : context.selectWeightedRandomCandidate maxI pass none s with
    ⟨_ | first, t⟩
  · rw [hfirst] at h
    simp at h
  · rw [hfirst] at h
    have hfirst : context.offers first :=
      selectWeightedRandomCandidate_offered (congrArg Prod.fst hfirst)
    obtain rfl := some.inj h
    split_ifs
    · -- the second, or the first again where there is no other
      cases hsecond : (context.selectWeightedRandomCandidate maxI pass
          (some (backendKey first)) t).1 with
      | none => exact hfirst
      | some second => exact selectWeightedRandomCandidate_offered hsecond
    · exact hfirst

variable {inputs : LoadBalancerSelectInputs}

theorem selectFnvHashWithBackupPolicy_offered
    (h : (context.selectFnvHashWithBackupPolicy inputs pass s).1 = some backend) :
    context.offers backend := by
  rw [selectFnvHashWithBackupPolicy] at h
  split_ifs at h
  refine find_offered ?_ (fun b hb t => offered_of_randomCandidateAllowed hb) h
  intro b hb
  obtain ⟨i, -, hi⟩ := mem_filterMap.1 hb
  exact mem_of_getElem? hi

theorem mem_of_mem_consistentHashCandidates {sec : UInt64} {key : Ascii.Bytes}
    (h : backend ∈ context.consistentHashCandidates sec key) :
    backend ∈ context.snapshot.backends := by
  obtain ⟨scored, hs, rfl⟩ := mem_map.1 h
  obtain ⟨b, hb, rfl⟩ := mem_map.1 ((perm_insertionSort _ _).mem_iff.1 hs)
  exact hb

theorem selectConsistentHashWithBackupPolicy_offered {bound : Option BoundedLoadSnapshot}
    (h : (context.selectConsistentHashWithBackupPolicy inputs bound pass s).1 = some backend) :
    context.offers backend := by
  refine find_offered ?_ ?_ h
  · exact fun b hb => mem_of_mem_consistentHashCandidates (mem_of_mem_take hb)
  · intro b hb t ht
    rw [Bool.and_eq_true] at ht
    exact offered_of_allowed hb ht.1

theorem selectBoundedLoadConsistentWithBackupPolicy_offered {factor : ℕ}
    (h : (context.selectBoundedLoadConsistentWithBackupPolicy inputs factor pass s).1 =
      some backend) : context.offers backend := by
  rw [selectBoundedLoadConsistentWithBackupPolicy] at h
  cases hbound : context.boundedLoadSnapshot pass factor s.slowStart with
  | none =>
    rw [hbound] at h
    exact selectConsistentHashWithBackupPolicy_offered h
  | some bound =>
    rw [hbound] at h
    rcases hfirst : context.selectConsistentHashWithBackupPolicy inputs (some bound) pass s with
      ⟨_ | first, t⟩
    · simp only [hfirst] at h
      exact selectConsistentHashWithBackupPolicy_offered h
    · simp only [hfirst] at h
      exact selectConsistentHashWithBackupPolicy_offered (congrArg Prod.fst hfirst |>.trans h)

/-- Of the ten algorithms each offers only usable backends. -/
theorem select_offered {inner : UpstreamLoadBalancerInner}
    (h : (inner.select context inputs s).1 = some backend) : context.offers backend := by
  cases inner with
  | roundRobin =>
    exact overPasses_offered
      (fun _ _ _ => selectWeightedRoundRobinWithBackupPolicy_offered) h
  | leastConnections | leastSessions | leastTime latency =>
    exact overPasses_offered (fun _ _ _ => selectLeastWithBackupPolicy_offered) h
  | powerOfTwo =>
    exact overPasses_offered (fun _ _ _ => selectPowerOfTwoWithBackupPolicy_offered) h
  | fnvHash => exact overPasses_offered (fun _ _ _ => selectFnvHashWithBackupPolicy_offered) h
  | consistentHash =>
    exact overPasses_offered (fun _ _ _ => selectConsistentHashWithBackupPolicy_offered) h
  | boundedLoadConsistentHash factor =>
    exact overPasses_offered
      (fun _ _ _ => selectBoundedLoadConsistentWithBackupPolicy_offered) h
  | nginxConsistentHash table | maglevHash table =>
    refine overPasses_offered (fun pass t b hb => ?_) h
    refine find_offered (fun c hc => ?_) (fun c hc t => offered_of_allowed hc) hb
    obtain ⟨key, -, hkey⟩ := mem_filterMap.1 hc
    simpa using mem_of_find?_eq_some hkey

end SelectionContext

namespace BackendSelectionPolicy

variable {policy : BackendSelectionPolicy} {liveKeys : Finset Key} {key : Key}

theorem pruneStale_isDrained (h : key ∈ liveKeys) :
    (policy.pruneStale liveKeys).isDrained key = policy.isDrained key := by
  simp [isDrained, pruneStale, RuntimeBackendPolicyOverrides.isDrained,
    RuntimeBackendPolicyOverrides.pruneStale, h]

end BackendSelectionPolicy

namespace UpstreamLoadBalancer

variable {pool : UpstreamLoadBalancer} {now : Instant} {backend : FluxBackend}

@[simp] theorem pruneStaleBackendStatePeriodically_snapshot :
    (pool.pruneStaleBackendStatePeriodically now).snapshot = pool.snapshot := by
  rw [pruneStaleBackendStatePeriodically]
  split_ifs <;> rfl

@[simp] theorem pruneStaleBackendStatePeriodically_maxInFlightFor :
    (pool.pruneStaleBackendStatePeriodically now).backendPolicy.maxInFlightFor backend =
      pool.backendPolicy.maxInFlightFor backend := by
  rw [pruneStaleBackendStatePeriodically]
  split_ifs <;> rfl

theorem offered_of_pruneStalePeriodically
    (h : Offered (pool.pruneStaleBackendStatePeriodically now).snapshot
      (pool.pruneStaleBackendStatePeriodically now).backendPolicy backend) :
    Offered pool.snapshot pool.backendPolicy backend := by
  rw [pruneStaleBackendStatePeriodically_snapshot] at h
  have hlive := BackendContainerSnapshot.backendKey_mem_liveKeys h.member
  rw [pruneStaleBackendStatePeriodically] at h
  split_ifs at h
  · exact ⟨h.member, h.ready, h.enabled,
      (BackendSelectionPolicy.pruneStale_isDrained hlive).symm.trans h.undrained⟩
  · exact h

/-! ### The pool -/

/-- A backend that is given out: usable, and with a permit that was taken while fewer requests
than its limit were in flight. -/
structure GivenOut (snapshot : BackendContainerSnapshot) (policy : BackendSelectionPolicy)
    (selected : SelectedUpstream) (after : UpstreamLoadBalancer) : Prop where
  offered : Offered snapshot policy selected.backend
  permit : selected.permit = some (backendKey selected.backend)
  under_limit : ∃ taken, after.counters.count selected.backend = taken + 1 ∧
    ∀ limit ∈ policy.maxInFlightFor selected.backend, taken < limit

variable {env : SelectionEnvironment} {request : LoadBalancerRequestView}
  {clientIp : Option IpAddr} {persistenceKey : Option Ascii.Bytes}
  {outcome : Option LoadBalancerPersistenceOutcome} {selected : SelectedUpstream}
  {after : UpstreamLoadBalancer} {snapshot : BackendContainerSnapshot}
  {policy : BackendSelectionPolicy}

theorem prepareSelected_givenOut {obs : List ℕ} (hoff : Offered snapshot policy backend)
    (hlimit : pool.backendPolicy.maxInFlightFor backend = policy.maxInFlightFor backend)
    (h : pool.prepareSelected backend outcome obs = some (selected, after)) :
    GivenOut snapshot policy selected after := by
  obtain ⟨cs, hcount, heq⟩ := map_eq_some_iff.1 h
  obtain ⟨rfl, rfl⟩ := Prod.mk.inj heq
  rw [hlimit] at hcount
  exact ⟨hoff, rfl, BackendConnectionCounters.permit_some hcount⟩

/-- Remembering a session changes neither the backend, nor its permit, nor the counts. -/
theorem givenOut_rememberSelected (h : GivenOut snapshot policy selected pool) :
    GivenOut snapshot policy (pool.rememberSelected env persistenceKey selected).1
      (pool.rememberSelected env persistenceKey selected).2 := by
  unfold rememberSelected
  split
  · exact h
  · exact ⟨h.offered, h.permit, h.under_limit⟩
  · rename_i persistence _
    cases hcookie : pool.newManagedCookie env.codec persistence with
    | mk cookie pool' =>
      have hcount : pool'.counters = pool.counters := by
        rw [newManagedCookie] at hcookie
        split at hcookie <;> cases hcookie <;> rfl
      cases cookie with
      | none => exact ⟨h.offered, h.permit, by simpa only [hcount] using h.under_limit⟩
      | some cookie => exact ⟨h.offered, h.permit, by simpa only [hcount] using h.under_limit⟩

theorem selectFresh_givenOut
    (h : pool.selectFresh env request clientIp persistenceKey outcome = (some selected, after)) :
    GivenOut pool.snapshot pool.backendPolicy selected after := by
  rw [selectFresh] at h
  split at h
  · cases h
  · rename_i backend hbe
    have hoff := offered_of_pruneStalePeriodically (SelectionContext.select_offered hbe)
    split at h
    · cases h
    · rename_i prepared taken hprep
      obtain ⟨hsel, rfl⟩ := Prod.mk.inj h
      obtain rfl := some.inj hsel
      refine givenOut_rememberSelected (prepareSelected_givenOut hoff ?_ hprep)
      exact pruneStaleBackendStatePeriodically_maxInFlightFor

theorem offered_of_backendAvailableForPersistence (hmem : backend ∈ pool.snapshot.backends)
    (h : pool.backendAvailableForPersistence now backend = true) :
    Offered pool.snapshot pool.backendPolicy backend := by
  simp only [backendAvailableForPersistence, Bool.and_eq_true, Bool.not_eq_true'] at h
  exact ⟨hmem, h.1.1.1.1.1, h.1.2, h.2⟩

theorem select_givenOut (h : pool.select env request clientIp = (some selected, after)) :
    GivenOut pool.snapshot pool.backendPolicy selected after := by
  rw [select] at h
  split at h
  · split at h
    · split at h
      · -- the session's backend
        rename_i hit
        obtain ⟨backend, hfind, hprep⟩ := bind_eq_some_iff.1 hit
        split_ifs at hprep with havail
        obtain ⟨hsel, rfl⟩ := Prod.mk.inj h
        obtain rfl := some.inj hsel
        exact prepareSelected_givenOut
          (offered_of_backendAvailableForPersistence (mem_of_find?_eq_some hfind) havail)
          rfl hprep
      · exact selectFresh_givenOut h
    · -- the session is new or over
      have hgiven := selectFresh_givenOut h
      exact hgiven
  · exact selectFresh_givenOut h

theorem not_mem_of_excludeAttempted {attempted : List SocketAddr}
    (h : pool.backendPolicy.excludeAttempted attempted = some policy)
    (hen : policy.isDisabled (backendKey backend) = false) : backend.addr ∉ attempted := by
  intro hmem
  rw [BackendSelectionPolicy.excludeAttempted] at h
  split_ifs at h
  obtain rfl := some.inj h
  have hexc : some (backendKey backend) ∈
      attempted.map (fun addr => some (backendAuthorityKey addr.text)) :=
    mem_map_of_mem hmem
  simp only [BackendSelectionPolicy.isDisabled, Bool.or_eq_false_iff, contains_eq_mem,
    decide_eq_false_iff_not] at hen
  exact hen.1.1 (mem_append_left _ hexc)

/-- What a caller may rely on: the backend is a member of the pool, ready, and neither disabled
nor drained nor forced down, and its permit was taken with fewer requests than its limit in
flight. -/
structure Usable (pool : UpstreamLoadBalancer) (selected : SelectedUpstream)
    (after : UpstreamLoadBalancer) : Prop where
  member : selected.backend ∈ pool.snapshot.backends
  ready : pool.snapshot.ready selected.backend = true
  not_disabled : backendKey selected.backend ∉ pool.backendPolicy.disabled ∧
    backendKey selected.backend ∉ pool.backendPolicy.runtime.disabled
  not_forced_down : backendKey selected.backend ∉ pool.backendPolicy.runtime.forcedDown
  not_drained : backendKey selected.backend ∉ pool.backendPolicy.drain ∧
    backendKey selected.backend ∉ pool.backendPolicy.runtime.drain
  permit : selected.permit = some (backendKey selected.backend)
  under_limit : ∃ taken, after.counters (backendKey selected.backend) = taken + 1 ∧
    ∀ limit ∈ pool.backendPolicy.maxInFlight.lookup (backendKey selected.backend), taken < limit

theorem usable_of_givenOut (h : GivenOut pool.snapshot pool.backendPolicy selected after) :
    pool.Usable selected after ∧
      some (backendKey selected.backend) ∉ pool.backendPolicy.retryExcluded := by
  have hen := h.offered.enabled
  have hactive := h.offered.undrained
  simp only [BackendSelectionPolicy.isDisabled, RuntimeBackendPolicyOverrides.isDisabled,
    Bool.or_eq_false_iff, contains_eq_mem, decide_eq_false_iff_not] at hen
  simp only [BackendSelectionPolicy.isDrained, RuntimeBackendPolicyOverrides.isDrained,
    Bool.or_eq_false_iff, decide_eq_false_iff_not] at hactive
  exact ⟨⟨h.offered.member, h.offered.ready, ⟨hen.1.2, hen.2.1⟩, hen.2.2,
    hactive, h.permit, h.under_limit⟩, hen.1.1⟩

/-- **Whatever the algorithm and the sessions, a request is given a backend of the pool that may
be used, under its limit, and a retry one that it has not tried.** -/
theorem selected_backend_usable (pool : UpstreamLoadBalancer) (env : SelectionEnvironment)
    (request : LoadBalancerRequestView) (clientIp : Option IpAddr) :
    (∀ selected after, pool.select env request clientIp = (some selected, after) →
      pool.Usable selected after ∧
        some (backendKey selected.backend) ∉ pool.backendPolicy.retryExcluded) ∧
    (∀ attempted selected after,
      pool.selectExcluding env request clientIp attempted = (some selected, after) →
        pool.Usable selected after ∧ selected.backend.addr ∉ attempted) := by
  refine ⟨fun selected after h => usable_of_givenOut (select_givenOut h), ?_⟩
  intro attempted selected after h
  rw [selectExcluding] at h
  split at h
  · cases h
  · rename_i policy hpol
    obtain ⟨hsel, rfl⟩ := Prod.mk.inj h
    have hgiven := select_givenOut (Prod.ext hsel rfl)
    have husable := (usable_of_givenOut hgiven).1
    refine ⟨?_, not_mem_of_excludeAttempted hpol hgiven.offered.enabled⟩
    -- the copy differs from the pool in the excluded members only
    rw [BackendSelectionPolicy.excludeAttempted] at hpol
    split_ifs at hpol
    obtain rfl := some.inj hpol
    exact ⟨husable.member, husable.ready, husable.not_disabled, husable.not_forced_down,
      husable.not_drained, husable.permit, husable.under_limit⟩

/-- A policy that says nothing. -/
def plainPolicy : BackendSelectionPolicy where
  backup := ∅
  drain := ∅
  disabled := ∅
  retryExcluded := List.replicate RETRY_EXCLUDED_SLOTS none
  runtime := {}
  priority := ∅
  localities := ∅
  preferredLocalities := ∅
  maxInFlight := ∅
  priorityGroups := []
  priorityGroupMinActive := 1
  healthWeights := ∅
  retryExcluded_length := length_noneExcluded
  priorityGroups_eq := by simp [sortedPriorityGroups, AList.empty_entries]

/-- A member of weight one. -/
def loneBackend : FluxBackend := ⟨{ ip := Ascii.ascii "10.0.0.1", port := 80 }, 1⟩

/-- A round robin over one backend, with one of at most two requests in flight. -/
def lonePool : UpstreamLoadBalancer where
  snapshot := ⟨[loneBackend], ∅, false⟩
  inner := .roundRobin
  keySource := .none
  backendAliases := ∅
  passiveHealth := none
  slowStart := none
  persistence := none
  roundRobinCursor := 0
  statePruneCounter := 1
  counters := fun _ => 1
  backendPolicy :=
    { plainPolicy with maxInFlight := AList.singleton (backendKey loneBackend) 2 }
  maxIterations := 1
  entropy := fun _ => 0

/-- Nothing happens at the same time. -/
def plainEnvironment : SelectionEnvironment where
  now := 0
  secrets := ⟨0, 0, 0⟩
  codec := ⟨fun _ _ => none, fun _ _ => none⟩

/-- A request without headers. -/
def plainRequest : LoadBalancerRequestView := ⟨[], fun _ => [], []⟩

/-- A member at another address. -/
def peerBackend (port : ℕ) : FluxBackend := ⟨{ ip := Ascii.ascii "10.0.0.2", port := port }, 1⟩

/-- Three members, the second drained, and a session on the first. -/
def retryPool : UpstreamLoadBalancer :=
  { lonePool with
    snapshot := ⟨[loneBackend, peerBackend 80, peerBackend 81], ∅, false⟩
    persistence := some ⟨.cookie, none, some (Ascii.ascii "id"), 60, 8, none,
      AList.singleton (Ascii.ascii "1") ⟨backendKey loneBackend, 5⟩⟩
    backendPolicy := { lonePool.backendPolicy with drain := {backendKey (peerBackend 80)} }
    maxIterations := 3 }

/-- A request of that session. -/
def stickyRequest : LoadBalancerRequestView :=
  { plainRequest with cookieHeaders := [Ascii.ascii "id=1"] }

/-- The session's backend, and for a retry after it the member that is left. -/
theorem selected_backend_usable_session :
    (∃ selected, (retryPool.select plainEnvironment stickyRequest none).1 = some selected ∧
      selected.persistenceOutcome = some .hit ∧
      retryPool.Usable selected (retryPool.select plainEnvironment stickyRequest none).2) ∧
    ∃ selected, (retryPool.selectExcluding plainEnvironment stickyRequest none
        [loneBackend.addr]).1 = some selected ∧
      selected.backend = peerBackend 81 ∧ selected.persistenceOutcome = some .fallback ∧
      retryPool.Usable selected
        (retryPool.selectExcluding plainEnvironment stickyRequest none [loneBackend.addr]).2 := by
  have hhit : (retryPool.select plainEnvironment stickyRequest none).1 = some
      { backend := loneBackend, permit := some (backendKey loneBackend),
        persistenceOutcome := some .hit } := by decide +kernel
  have hretry : (retryPool.selectExcluding plainEnvironment stickyRequest none
      [loneBackend.addr]).1 = some
      { backend := peerBackend 81, permit := some (backendKey (peerBackend 81)),
        persistenceOutcome := some .fallback } := by decide +kernel
  obtain ⟨hsel, hexc⟩ := selected_backend_usable retryPool plainEnvironment stickyRequest none
  exact ⟨⟨_, hhit, rfl, (hsel _ _ (Prod.ext hhit rfl)).1⟩,
    ⟨_, hretry, rfl, rfl, (hexc _ _ _ (Prod.ext hretry rfl)).1⟩⟩

end UpstreamLoadBalancer

end Fluxheim.Balancer
