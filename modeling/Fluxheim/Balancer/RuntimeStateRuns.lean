import Fluxheim.Balancer.OverrideRuns
import Fluxheim.Balancer.RuntimeState

/-!
# What every history of a pool keeps

What one operation on a pool and a run of them keep of its overrides and of its sessions.  Unlike
`Consistent` it survives a refused change, which can leave a time without an override.
-/

namespace Fluxheim.Balancer

open Ascii Option AList

namespace RuntimeBackendPolicyOverrides

/-- A member has one override, which has its time; every weight has its time, and there are not too
many. -/
structure Kept (overrides : RuntimeBackendPolicyOverrides) : Prop where
  drain_disabled : Disjoint overrides.drain overrides.disabled
  drain_forcedDown : Disjoint overrides.drain overrides.forcedDown
  disabled_forcedDown : Disjoint overrides.disabled overrides.forcedDown
  timed : ∀ key, overrides.state key ≠ none → key ∈ overrides.changedAtUnixSecs
  weighed : ∀ key, key ∈ overrides.weightChangedAtUnixSecs ↔ key ∈ overrides.weights
  weights_length :
    overrides.weights.entries.length ≤ MAX_RUNTIME_BACKEND_POLICY_OVERRIDE_ENTRIES

variable {overrides : RuntimeBackendPolicyOverrides}

theorem state_ne_none_iff {key : Key} : overrides.state key ≠ none ↔
    key ∈ overrides.drain ∨ key ∈ overrides.disabled ∨ key ∈ overrides.forcedDown := by
  rw [Ne, state_eq_none_iff]
  tauto

/-- The same, from the point of view of one key. -/
theorem kept_iff : overrides.Kept ↔
    (∀ k,
      ¬ (k ∈ overrides.drain ∧ k ∈ overrides.disabled) ∧
      ¬ (k ∈ overrides.drain ∧ k ∈ overrides.forcedDown) ∧
      ¬ (k ∈ overrides.disabled ∧ k ∈ overrides.forcedDown) ∧
      (k ∈ overrides.drain ∨ k ∈ overrides.disabled ∨ k ∈ overrides.forcedDown →
        k ∈ overrides.changedAtUnixSecs) ∧
      (k ∈ overrides.weightChangedAtUnixSecs ↔ k ∈ overrides.weights)) ∧
    overrides.weights.entries.length ≤ MAX_RUNTIME_BACKEND_POLICY_OVERRIDE_ENTRIES := by
  constructor
  · intro h
    refine ⟨fun k => ⟨fun hk => Finset.disjoint_left.1 h.drain_disabled hk.1 hk.2,
      fun hk => Finset.disjoint_left.1 h.drain_forcedDown hk.1 hk.2,
      fun hk => Finset.disjoint_left.1 h.disabled_forcedDown hk.1 hk.2, ?_, h.weighed k⟩,
      h.weights_length⟩
    exact fun hk => h.timed k (state_ne_none_iff.2 hk)
  · rintro ⟨h, hlen⟩
    exact ⟨Finset.disjoint_left.2 fun k h1 h2 => (h k).1 ⟨h1, h2⟩,
      Finset.disjoint_left.2 fun k h1 h2 => (h k).2.1 ⟨h1, h2⟩,
      Finset.disjoint_left.2 fun k h1 h2 => (h k).2.2.1 ⟨h1, h2⟩,
      fun k hk => (h k).2.2.2.1 (state_ne_none_iff.1 hk), fun k => (h k).2.2.2.2, hlen⟩

theorem kept_default : ({} : RuntimeBackendPolicyOverrides).Kept := by
  rw [kept_iff]
  simp [notMem_empty]

theorem Kept.unset (h : overrides.Kept) (key : Key) : (overrides.unset key).Kept := by
  rw [kept_iff] at h ⊢
  refine ⟨fun k => ?_, h.2⟩
  obtain ⟨h1, h2, h3, htimed, hweighed⟩ := h.1 k
  by_cases heq : k = key
  · subst heq
    simp [RuntimeBackendPolicyOverrides.unset, hweighed]
  · simpa [RuntimeBackendPolicyOverrides.unset, heq, h1, h2, h3, hweighed] using htimed

theorem Kept.placed (h : overrides.Kept) (now : ℕ) (key : Key)
    (state : LoadBalancerRuntimeBackendState) : (overrides.placed now key state).Kept := by
  rw [kept_iff] at h ⊢
  refine ⟨fun k => ?_, by cases state <;> exact h.2⟩
  obtain ⟨h1, h2, h3, htimed, hweighed⟩ := h.1 k
  by_cases heq : k = key
  · subst heq
    cases state <;>
      simp [RuntimeBackendPolicyOverrides.placed, RuntimeBackendPolicyOverrides.unset, hweighed]
  · cases state <;>
      simpa [RuntimeBackendPolicyOverrides.placed, RuntimeBackendPolicyOverrides.unset, heq, h1, h2,
        h3, hweighed] using htimed

theorem Kept.setState (h : overrides.Kept) (now : ℕ) (key : Key)
    (state : LoadBalancerRuntimeBackendState) : (overrides.setState now key state).2.Kept := by
  rcases setState_cases overrides now key state with ⟨-, heq⟩ | ⟨-, heq⟩
  · rw [heq]
    exact h.unset key
  · rw [heq]
    exact h.placed now key state

theorem Kept.setWeight (h : overrides.Kept) (now : ℕ) (key : Key) (weight : Option ℕ) :
    (overrides.setWeight now key weight).2.Kept := by
  cases weight with
  | none =>
    exact ⟨h.drain_disabled, h.drain_forcedDown, h.disabled_forcedDown, h.timed,
      fun k => by simp [RuntimeBackendPolicyOverrides.setWeight, h.weighed k],
      (length_erase_le key _).trans h.weights_length⟩
  | some v =>
    rw [RuntimeBackendPolicyOverrides.setWeight]
    split_ifs with hfull
    · exact h
    · refine ⟨h.drain_disabled, h.drain_forcedDown, h.disabled_forcedDown, h.timed,
        fun k => by simp [h.weighed k], ?_⟩
      by_cases hmem : key ∈ overrides.weights
      · exact (length_insert_of_mem hmem v).trans_le h.weights_length
      · have hle := length_insert_le key v overrides.weights
        have hroom := not_le.1 (fun hle => hfull ⟨hmem, hle⟩)
        exact hle.trans hroom

theorem Kept.pruneStale (h : overrides.Kept) (liveKeys : Finset Key) :
    (overrides.pruneStale liveKeys).Kept := by
  rw [kept_iff] at h ⊢
  refine ⟨fun k => ?_, (List.length_filter_le _ _).trans h.2⟩
  obtain ⟨h1, h2, h3, htimed, hweighed⟩ := h.1 k
  simp only [RuntimeBackendPolicyOverrides.pruneStale, mem_retainKeys, Finset.mem_filter,
    Finset.mem_union, Bool.or_eq_true, decide_eq_true_eq]
  refine ⟨fun hk => h1 ⟨hk.1.1, hk.2⟩, fun hk => h2 ⟨hk.1.1, hk.2⟩, h3, ?_, by rw [hweighed]⟩
  rintro (⟨hdrain, hlive⟩ | hoverride)
  · exact ⟨htimed (.inl hdrain), .inl hlive⟩
  · exact ⟨htimed (.inr hoverride), .inr hoverride⟩

theorem Kept.clearKey (h : overrides.Kept) (key : Key) : (overrides.clearKey key).Kept := by
  rw [kept_iff] at h ⊢
  refine ⟨fun k => ?_, (length_erase_le key _).trans h.2⟩
  obtain ⟨h1, h2, h3, htimed, hweighed⟩ := h.1 k
  by_cases heq : k = key
  · subst heq
    simp [RuntimeBackendPolicyOverrides.clearKey]
  · simpa [RuntimeBackendPolicyOverrides.clearKey, heq, h1, h2, h3, hweighed] using htimed

theorem kept_of_prepareSnapshot {snap : RuntimeBackendPolicySnapshot}
    {prep : RuntimeBackendPolicyOverrides} (h : prepareSnapshot snap = .ok prep) : prep.Kept := by
  have hconsistent := prepareSnapshot_consistent h
  obtain ⟨hlimit, -, -, -, -, rfl⟩ := prepareSnapshot_eq_ok_iff.1 h
  have hlen := length_insertAll_le (snap.weights.map weightEntry) ∅
  rw [empty_entries, List.length_nil, List.length_map, zero_add] at hlen
  exact ⟨hconsistent.drain_disabled, hconsistent.drain_forcedDown,
    hconsistent.disabled_forcedDown,
    fun k hk => (hconsistent.changed k).2 (state_ne_none_iff.1 hk), hconsistent.weighed,
    hlen.trans hlimit.2⟩

end RuntimeBackendPolicyOverrides

/-! ### Sessions -/

theorem headerKeyLoop_length_le {vs : List Bytes} {start key : Bytes}
    (hstart : start.length ≤ MAX_PERSISTENCE_KEY_BYTES)
    (h : headerKeyLoop vs start = some key) : key.length ≤ MAX_PERSISTENCE_KEY_BYTES := by
  induction vs generalizing start with
  | nil =>
    obtain rfl := some.inj h
    exact hstart
  | cons v vs ih =>
    rw [headerKeyLoop] at h
    split_ifs at h with hlong
    exact ih (not_lt.1 hlong) h

theorem cookieKey_length_le {req : LoadBalancerRequestView} {name key : Bytes}
    (h : cookieKey req name = some key) : key.length ≤ MAX_PERSISTENCE_KEY_BYTES := by
  rw [cookieKey] at h
  split at h
  · cases h
  · split_ifs at h with hlong
    obtain rfl := some.inj h
    exact not_lt.1 hlong

namespace LoadBalancerPersistenceState

/-- The table is not too large, nor are its keys, and no session lives too long. -/
structure Kept (state : LoadBalancerPersistenceState) (now : Instant) : Prop where
  length_le : state.table.entries.length ≤ state.tableMaxEntries
  key_length : ∀ key ∈ state.table, key.length ≤ MAX_PERSISTENCE_KEY_BYTES
  expires_le : ∀ key entry, state.table.lookup key = some entry →
    entry.expiresAt ≤ now + Duration.fromSecs state.ttlSecs

variable {state : LoadBalancerPersistenceState} {now : Instant}

theorem key_length_le {codec : ManagedCookieCodec} {req : LoadBalancerRequestView}
    {clientIp : Option IpAddr} {key : Bytes} (h : state.key codec req clientIp = some key) :
    key.length ≤ MAX_PERSISTENCE_KEY_BYTES := by
  rw [LoadBalancerPersistenceState.key] at h
  cases hmode : state.mode with
  | sourceIp =>
    simp only [hmode] at h
    obtain ⟨ip, -, rfl⟩ := map_eq_some_iff.1 h
    exact ip.text_length_le.trans (by decide)
  | header =>
    simp only [hmode] at h
    obtain ⟨name, -, hkey⟩ := bind_eq_some_iff.1 h
    exact headerKeyLoop_length_le (Nat.zero_le _) (filter_eq_some_iff.1 hkey).1
  | cookie =>
    simp only [hmode] at h
    obtain ⟨name, -, hkey⟩ := bind_eq_some_iff.1 h
    exact cookieKey_length_le hkey
  | managedCookie =>
    simp only [hmode] at h
    obtain ⟨config, -, hkey⟩ := bind_eq_some_iff.1 h
    obtain ⟨verified, -, rfl⟩ := map_eq_some_iff.1 hkey
    exact verified.2.trans_le (by decide)

theorem Kept.mono (h : state.Kept now) {later : Instant} (hle : now ≤ later) : state.Kept later :=
  ⟨h.length_le, h.key_length,
    fun key e hentry => (h.expires_le key e hentry).trans (Nat.add_le_add_right hle _)⟩

variable {table : AList fun _ : Bytes => LoadBalancerPersistenceEntry} {liveKeys : Finset Key}

/-- A part of the table is kept like the whole. -/
theorem Kept.of_sub (h : state.Kept now) (hlen : table.entries.length ≤ state.table.entries.length)
    (hsub : ∀ key e, table.lookup key = some e → state.table.lookup key = some e) :
    Kept { state with table := table } now := by
  refine ⟨hlen.trans h.length_le, fun key hkey => ?_,
    fun key e hentry => h.expires_le key e (hsub key e hentry)⟩
  obtain ⟨e, hentry⟩ := isSome_iff_exists.1 (lookup_isSome.2 hkey)
  exact h.key_length key (lookup_isSome.1 (isSome_iff_exists.2 ⟨e, hsub _ _ hentry⟩))

theorem lookup_erase_sub {gone key : Bytes} {entry : LoadBalancerPersistenceEntry}
    (h : (table.erase gone).lookup key = some entry) : table.lookup key = some entry := by
  by_cases heq : key = gone
  · subst heq
    simp at h
  · rwa [lookup_erase_ne heq] at h

theorem Kept.erase (h : state.Kept now) (gone : Bytes) :
    Kept { state with table := state.table.erase gone } now :=
  h.of_sub (length_erase_le gone _) fun _ _ => lookup_erase_sub

theorem Kept.retain (h : state.Kept now) (p : LoadBalancerPersistenceEntry → Prop)
    [DecidablePred p] :
    Kept { state with table := state.table.retain fun e => if p e then some e else none } now := by
  refine h.of_sub (List.length_filterMap_le _ _) fun key entry hentry => ?_
  rw [lookup_retain] at hentry
  obtain ⟨kept, hkept, heq⟩ := bind_eq_some_iff.1 hentry
  split_ifs at heq
  rwa [← some.inj heq]

theorem Kept.lookup (h : state.Kept now) (key : Bytes) : (state.lookup now key).2.Kept now := by
  rw [LoadBalancerPersistenceState.lookup]
  split
  · exact h
  · split_ifs
    · exact h.erase key
    · exact h

theorem Kept.makeRoom (h : state.Kept now) : (state.makeRoom now).Kept now := by
  have hret := h.retain fun e => now < e.expiresAt
  rw [LoadBalancerPersistenceState.makeRoom]
  split_ifs
  · split
    · exact hret
    · exact hret.erase _
  · exact hret

theorem Kept.record (h : state.Kept now) {key : Bytes}
    (hkey : key.length ≤ MAX_PERSISTENCE_KEY_BYTES) (bkey : Key) :
    (state.record now key bkey).Kept now := by
  rw [LoadBalancerPersistenceState.record]
  -- the table that the key is put in
  generalize hroom : (if state.tableMaxEntries ≤ state.table.entries.length ∧ key ∉ state.table
    then state.makeRoom now else state) = roomy
  have hroomy : roomy.Kept now := by
    rw [← hroom]
    split_ifs
    · exact h.makeRoom
    · exact h
  split_ifs with hfits
  · refine ⟨?_, fun k hk => ?_, fun k e hentry => ?_⟩
    · by_cases hmem : key ∈ roomy.table
      · exact (length_insert_of_mem hmem _).trans_le hroomy.length_le
      · exact (length_insert_le key _ _).trans (hfits.resolve_right hmem)
    · rcases (mem_insert _).1 hk with rfl | hk
      · exact hkey
      · exact hroomy.key_length k hk
    · by_cases heq : k = key
      · subst heq
        rw [lookup_insert] at hentry
        rw [← some.inj hentry]
      · rw [lookup_insert_ne heq] at hentry
        exact hroomy.expires_le k e hentry
  · exact hroomy

theorem Kept.pruneStale (h : state.Kept now) (liveKeys : Finset Key) :
    (state.pruneStaleForLiveBackends now liveKeys).Kept now :=
  h.retain fun e => now < e.expiresAt ∧ e.backendKey ∈ liveKeys

theorem kept_of_empty (h : state.table = ∅) : state.Kept now := by
  refine ⟨by simp [h], fun key hkey => ?_, fun key e hentry => ?_⟩
  · rw [h] at hkey
    exact absurd hkey (notMem_empty key)
  · simp [h] at hentry

theorem kept_of_prepareSnapshot {snap : LoadBalancerPersistenceSnapshot}
    (h : state.prepareSnapshot now liveKeys snap = .ok table) :
    Kept { state with table := table } now := by
  rw [prepareSnapshot, Fallible.ite_error_eq_ok, prepareEntries_eq_ok_iff] at h
  obtain ⟨hlimit, hents, hfresh, rfl⟩ := h
  refine ⟨?_, fun key hkey => ?_, fun key session hsession => ?_⟩
  · have hlen := length_insertAll_le
      ((snap.entries.filter (·.backendKey ∈ liveKeys)).map (sessionEntry now)) ∅
    have hfilter := List.length_filter_le (fun e => decide (e.backendKey ∈ liveKeys)) snap.entries
    rw [empty_entries, List.length_nil, List.length_map, zero_add] at hlen
    exact (hlen.trans hfilter).trans (not_lt.1 hlimit)
  · obtain ⟨entry, hentry, rfl⟩ := (mem_insertAll_map hfresh.1 key).1 hkey
    exact (hents entry (List.mem_filter.1 hentry).1).key_length
  · obtain ⟨entry, hentry, rfl, rfl⟩ := (lookup_insertAll_map hfresh.1 key session).1 hsession
    exact Nat.add_le_add_left
      (Nat.mul_le_mul_right _ (hents entry (List.mem_filter.1 hentry).1).left_le) now

end LoadBalancerPersistenceState

/-! ### The pool -/

namespace UpstreamLoadBalancer

/-- Overrides and sessions are kept. -/
structure Kept (pool : UpstreamLoadBalancer) (now : Instant) : Prop where
  runtime : pool.backendPolicy.runtime.Kept
  persistence : ∀ persistence ∈ pool.persistence, persistence.Kept now

variable {pool : UpstreamLoadBalancer} {now : Instant}

theorem Kept.mono (h : pool.Kept now) {later : Instant} (hle : now ≤ later) : pool.Kept later :=
  ⟨h.runtime, fun p hp => (h.persistence p hp).mono hle⟩

theorem Kept.pruneStaleBackendState (h : pool.Kept now) :
    (pool.pruneStaleBackendState now).Kept now := by
  refine ⟨h.runtime.pruneStale _, fun p hp => ?_⟩
  obtain ⟨before, hpre, rfl⟩ := map_eq_some_iff.1 hp
  exact (h.persistence before hpre).pruneStale _

theorem Kept.pruneStaleBackendStatePeriodically (h : pool.Kept now) :
    (pool.pruneStaleBackendStatePeriodically now).Kept now := by
  rw [UpstreamLoadBalancer.pruneStaleBackendStatePeriodically]
  split_ifs
  · exact ⟨h.pruneStaleBackendState.runtime, h.pruneStaleBackendState.persistence⟩
  · exact ⟨h.runtime, h.persistence⟩

variable {after : UpstreamLoadBalancer} {env : SelectionEnvironment}

theorem Kept.prepareSelected (h : pool.Kept now) {backend : FluxBackend}
    {out : Option LoadBalancerPersistenceOutcome} {obs : List ℕ} {selected : SelectedUpstream}
    (hsel : pool.prepareSelected backend out obs = some (selected, after)) : after.Kept now := by
  obtain ⟨cs, -, heq⟩ := map_eq_some_iff.1 hsel
  obtain ⟨-, rfl⟩ := Prod.mk.inj heq
  exact ⟨h.runtime, h.persistence⟩

theorem newManagedCookie_spec {codec : ManagedCookieCodec} {state : LoadBalancerPersistenceState}
    {made : Option (Bytes × Bytes)} (hpool : pool.Kept now)
    (h : pool.newManagedCookie codec state = (made, after)) :
    after.Kept now ∧
      ∀ cookie ∈ made, cookie.1.length ≤ MAX_PERSISTENCE_KEY_BYTES := by
  rw [newManagedCookie] at h
  split at h
  · obtain ⟨rfl, rfl⟩ := Prod.mk.inj h
    exact ⟨hpool, by simp⟩
  · obtain ⟨rfl, rfl⟩ := Prod.mk.inj h
    refine ⟨⟨hpool.runtime, hpool.persistence⟩, fun cookie hcookie => ?_⟩
    obtain ⟨tok, -, rfl⟩ := map_eq_some_iff.1 hcookie
    simp [toLeBytes, MAX_PERSISTENCE_KEY_BYTES]

theorem Kept.rememberSelected (h : pool.Kept env.now) {pkey : Option Bytes}
    (hkey : ∀ key ∈ pkey, key.length ≤ MAX_PERSISTENCE_KEY_BYTES) (selected : SelectedUpstream) :
    (pool.rememberSelected env pkey selected).2.Kept env.now := by
  unfold UpstreamLoadBalancer.rememberSelected
  split
  · exact h
  · rename_i persistence key hpers
    refine ⟨h.runtime, fun p hp => ?_⟩
    obtain rfl := some.inj hp
    exact (h.persistence persistence hpers).record (hkey key rfl) _
  · rename_i persistence hpers
    cases hmade : pool.newManagedCookie env.codec persistence with
    | mk made after =>
      obtain ⟨hkept, hcookie⟩ := newManagedCookie_spec h hmade
      cases made with
      | none => exact hkept
      | some cookie =>
        refine ⟨hkept.runtime, fun p hp => ?_⟩
        obtain rfl := some.inj hp
        exact (h.persistence persistence hpers).record (hcookie cookie rfl) _

theorem Kept.selectFresh (h : pool.Kept env.now) {pkey : Option Bytes}
    (hkey : ∀ key ∈ pkey, key.length ≤ MAX_PERSISTENCE_KEY_BYTES)
    (req : LoadBalancerRequestView) (clientIp : Option IpAddr)
    (out : Option LoadBalancerPersistenceOutcome) :
    (pool.selectFresh env req clientIp pkey out).2.Kept env.now := by
  have hprune := h.pruneStaleBackendStatePeriodically
  rw [UpstreamLoadBalancer.selectFresh]
  generalize pool.pruneStaleBackendStatePeriodically env.now = pruned at *
  split
  · exact ⟨hprune.runtime, hprune.persistence⟩
  · have hchosen : ∀ s, (pruned.withSelectionState s).Kept env.now :=
      fun s => ⟨hprune.runtime, hprune.persistence⟩
    split
    · exact hchosen _
    · rename_i hprep
      exact ((hchosen _).prepareSelected hprep).rememberSelected hkey _

theorem Kept.select (h : pool.Kept env.now)
    (req : LoadBalancerRequestView) (clientIp : Option IpAddr) :
    (pool.select env req clientIp).2.Kept env.now := by
  have hkey : ∀ key ∈ pool.persistence.bind (·.key env.codec req clientIp),
      key.length ≤ MAX_PERSISTENCE_KEY_BYTES := by
    intro key hkey
    obtain ⟨persistence, -, hkey⟩ := bind_eq_some_iff.1 hkey
    exact LoadBalancerPersistenceState.key_length_le hkey
  rw [UpstreamLoadBalancer.select]
  split
  · rename_i persistence key hpers hsome
    have hloo := (h.persistence persistence hpers).lookup key
    split
    · split
      · rename_i hit
        obtain ⟨backend, -, hprep⟩ := bind_eq_some_iff.1 hit
        split_ifs at hprep
        exact h.prepareSelected hprep
      · exact h.selectFresh (hsome ▸ hkey) req clientIp _
    · -- the session is new, or over and dropped
      rename_i looked heq
      rw [heq] at hloo
      have hpool : Kept { pool with persistence := some looked } env.now := by
        refine ⟨h.runtime, fun p hp => ?_⟩
        obtain rfl := some.inj hp
        exact hloo
      exact hpool.selectFresh (hsome ▸ hkey) req clientIp _
  · exact h.selectFresh hkey req clientIp _

theorem Kept.selectExcluding (h : pool.Kept env.now)
    (req : LoadBalancerRequestView) (clientIp : Option IpAddr) (tried : List SocketAddr) :
    (pool.selectExcluding env req clientIp tried).2.Kept env.now := by
  rw [UpstreamLoadBalancer.selectExcluding]
  split
  · exact h
  · rename_i policy hpol
    have hruntime : policy.runtime = pool.backendPolicy.runtime := by
      rw [BackendSelectionPolicy.excludeAttempted] at hpol
      split_ifs at hpol
      rw [← some.inj hpol]
    have hcopy : Kept { pool with backendPolicy := policy } env.now :=
      ⟨hruntime ▸ h.runtime, h.persistence⟩
    exact ⟨(hcopy.select req clientIp).runtime, (hcopy.select req clientIp).persistence⟩

theorem Kept.setRuntimeBackendState (h : pool.Kept now) (secs : ℕ) (member : Bytes)
    (state : LoadBalancerRuntimeBackendState) :
    (pool.setRuntimeBackendState now secs member state).2.Kept now := by
  rw [UpstreamLoadBalancer.setRuntimeBackendState]
  split
  · exact h
  · have hruntime := fun key => h.runtime.setState secs key state
    dsimp only
    split_ifs
    · exact ⟨hruntime _, h.persistence⟩
    · exact ⟨hruntime _, h.persistence⟩
    · exact ⟨hruntime _, h.persistence⟩

theorem Kept.setRuntimeBackendWeight (h : pool.Kept now) (secs : ℕ) (member : Bytes)
    (weight : Option ℕ) : (pool.setRuntimeBackendWeight secs member weight).2.Kept now := by
  rw [UpstreamLoadBalancer.setRuntimeBackendWeight]
  split_ifs
  · exact h
  · split
    · exact h
    · have hruntime := fun key => h.runtime.setWeight secs key weight
      dsimp only
      split_ifs
      · exact ⟨hruntime _, h.persistence⟩
      · exact ⟨hruntime _, h.persistence⟩

theorem Kept.replaceMembers (h : pool.Kept now) (snap : BackendContainerSnapshot)
    (removed : Option Key) : (pool.replaceMembers now snap removed).Kept now := by
  apply pruneStaleBackendState
  cases removed with
  | none => exact ⟨h.runtime, h.persistence⟩
  | some key => exact ⟨h.runtime.clearKey key, h.persistence⟩

theorem Kept.clearPersistence (h : pool.Kept now) : pool.clearPersistence.2.Kept now := by
  rw [UpstreamLoadBalancer.clearPersistence]
  split
  · exact h
  · refine ⟨h.runtime, fun p hp => ?_⟩
    obtain rfl := some.inj hp
    exact LoadBalancerPersistenceState.kept_of_empty rfl

variable {snap : LoadBalancerRuntimeStateSnapshot}

/-- What a successful import has read. -/
theorem restoreRuntimeStateSnapshot_ok {count : ℕ}
    (h : pool.restoreRuntimeStateSnapshot now snap = .ok (count, after)) :
    ∃ runtime table,
      RuntimeBackendPolicyOverrides.prepareSnapshot snap.runtimeOverrides = .ok runtime ∧
      pool.preparePersistence now snap.persistence = .ok table ∧
      after.backendPolicy.runtime = runtime ∧
      after.persistence = table.elim pool.persistence fun table =>
        pool.persistence.map fun pers => { pers with table := table } := by
  rw [restoreRuntimeStateSnapshot] at h
  split_ifs at h
  obtain ⟨runtime, hruntime, h⟩ := Fallible.bind_eq_ok.1 h
  obtain ⟨table, htable, h⟩ := Fallible.bind_eq_ok.1 h
  refine ⟨runtime, table, hruntime, htable, ?_⟩
  cases table with
  | none =>
    obtain ⟨-, rfl⟩ := Prod.mk.inj (Except.ok.inj h)
    exact ⟨rfl, rfl⟩
  | some table =>
    obtain ⟨-, rfl⟩ := Prod.mk.inj (Except.ok.inj h)
    exact ⟨rfl, rfl⟩

theorem Kept.restoreRuntimeStateSnapshot (h : pool.Kept now) {count : ℕ}
    (hrestored : pool.restoreRuntimeStateSnapshot now snap = .ok (count, after)) :
    after.Kept now := by
  obtain ⟨runtime, table, hruntime, htable, hafter, hpers⟩ :=
    restoreRuntimeStateSnapshot_ok hrestored
  refine ⟨hafter ▸ RuntimeBackendPolicyOverrides.kept_of_prepareSnapshot hruntime, ?_⟩
  rw [hpers]
  unfold preparePersistence at htable
  split at htable
  · rename_i persistence imported hpool himp
    obtain ⟨es, hents, rfl⟩ := Fallible.map_eq_ok.1 htable
    intro p hp
    rw [hpool] at hp
    obtain rfl := some.inj hp
    exact LoadBalancerPersistenceState.kept_of_prepareSnapshot hents
  · obtain rfl := Except.ok.inj htable
    exact h.persistence

theorem Kept.operate (h : pool.Kept now) (operation : PoolOperation) :
    (pool.operate now operation).Kept now := by
  cases operation with
  | select env req clientIp =>
    have hnow : pool.Kept { env with now := now : SelectionEnvironment }.now := h
    exact hnow.select req clientIp
  | selectExcluding env req clientIp tried =>
    have hnow : pool.Kept { env with now := now : SelectionEnvironment }.now := h
    exact hnow.selectExcluding req clientIp tried
  | setRuntimeBackendState secs member state => exact h.setRuntimeBackendState _ _ _
  | setRuntimeBackendWeight secs member weight => exact h.setRuntimeBackendWeight _ _ _
  | replaceMembers snap removed => exact h.replaceMembers _ _
  | clearPersistence => exact h.clearPersistence
  | restoreRuntimeStateSnapshot snap =>
    rw [UpstreamLoadBalancer.operate]
    split
    · exact h
    · rename_i hrestored
      exact h.restoreRuntimeStateSnapshot hrestored
  | elsewhere other => exact ⟨h.runtime, h.persistence⟩

/-- A pool as it is built from its configuration: no overrides and no sessions. -/
structure Fresh (pool : UpstreamLoadBalancer) : Prop where
  runtime : pool.backendPolicy.runtime = {}
  persistence : ∀ persistence ∈ pool.persistence, persistence.table = ∅

theorem Fresh.kept (h : pool.Fresh) : pool.Kept now :=
  ⟨h.runtime ▸ RuntimeBackendPolicyOverrides.kept_default,
    fun p hp => LoadBalancerPersistenceState.kept_of_empty (h.persistence p hp)⟩

end UpstreamLoadBalancer

namespace TimedPool

theorem kept_step {s : TimedPool} (h : s.pool.Kept s.clock) (e : Duration × PoolOperation) :
    (s.step e).pool.Kept (s.step e).clock :=
  (h.mono (Nat.le_add_right _ _)).operate e.2

/-- **Every state a pool comes to is kept.** -/
theorem kept_run {pool : UpstreamLoadBalancer} (h : pool.Fresh) (start : Instant)
    (events : List (Duration × PoolOperation)) :
    (events.foldl step ⟨pool, start⟩).pool.Kept (events.foldl step ⟨pool, start⟩).clock :=
  Run.foldl_invariant (P := fun s : TimedPool => s.pool.Kept s.clock)
    (fun _ e hs => kept_step hs e) h.kept events

end TimedPool

end Fluxheim.Balancer
