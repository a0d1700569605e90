import Mathlib.Data.Option.Defs
import Fluxheim.Balancer.RuntimeStateRuns
import Fluxheim.Balancer.SelectionSafety

/-!
# The exported state of a pool, read back

An export is accepted and brings back the overrides and the live sessions, with ends rounded to
whole seconds, exactly if it is exportable.  The side that records lets more in than the side that
reads back: an empty cookie is a key, the three sets are bounded one by one and not together, and a
weight is whatever it is asked to be.
-/

namespace Fluxheim.Balancer

open Ascii List AList

namespace RuntimeBackendPolicyOverrides

/-- The same overrides, with the same times. -/
structure Same (a b : RuntimeBackendPolicyOverrides) : Prop where
  drain : a.drain = b.drain
  disabled : a.disabled = b.disabled
  forcedDown : a.forcedDown = b.forcedDown
  weights : ∀ key, a.weights.lookup key = b.weights.lookup key
  weightChangedAtUnixSecs :
    ∀ key, a.weightChangedAtUnixSecs.lookup key = b.weightChangedAtUnixSecs.lookup key
  changedAtUnixSecs : ∀ key, a.changedAtUnixSecs.lookup key = b.changedAtUnixSecs.lookup key

/-- The overrides that are read back. -/
structure Exportable (overrides : RuntimeBackendPolicyOverrides) : Prop where
  states : overrides.drain.card + overrides.disabled.card + overrides.forcedDown.card ≤
    MAX_RUNTIME_BACKEND_POLICY_OVERRIDE_ENTRIES
  weights : ∀ key weight, overrides.weights.lookup key = some weight →
    weight ≠ 0 ∧ weight ≤ MAX_RUNTIME_BACKEND_WEIGHT
  times : ∀ key ∈ overrides.changedAtUnixSecs, overrides.state key ≠ none

variable {overrides : RuntimeBackendPolicyOverrides}

/-! ### The states of a snapshot -/

variable {entry : RuntimeBackendPolicyStateSnapshot}

theorem mem_stateEntries {keys : Finset Key} {state : LoadBalancerRuntimeBackendState} :
    entry ∈ overrides.stateEntries keys state ↔ entry.key ∈ keys ∧ entry.state = state ∧
      entry.changedAtUnixSecs = (overrides.changedAtUnixSecs.lookup entry.key).getD 0 := by
  rw [stateEntries, mem_map]
  constructor
  · rintro ⟨key, hkey, rfl⟩
    exact ⟨(Finset.mem_sort _).1 hkey, rfl, rfl⟩
  · rintro ⟨hkey, hstate, htime⟩
    refine ⟨entry.key, (Finset.mem_sort _).2 hkey, ?_⟩
    rw [← hstate, ← htime]

theorem mem_snapshot_states :
    entry ∈ overrides.snapshot.states ↔
      (entry.key ∈ overrides.drain ∧ entry.state = .drained ∨
        entry.key ∈ overrides.disabled ∧ entry.state = .disabled ∨
        entry.key ∈ overrides.forcedDown ∧ entry.state = .forcedDown) ∧
      entry.changedAtUnixSecs = (overrides.changedAtUnixSecs.lookup entry.key).getD 0 := by
  rw [snapshot, mem_insertionSort, mem_append, mem_append, mem_stateEntries,
    mem_stateEntries, mem_stateEntries]
  tauto

theorem length_snapshot_states : overrides.snapshot.states.length =
    overrides.drain.card + overrides.disabled.card + overrides.forcedDown.card := by
  simp [snapshot, stateEntries, length_insertionSort, add_assoc]

theorem snapshot_states_nodup (h : overrides.Kept) :
    (overrides.snapshot.states.map (·.key)).Nodup := by
  have hkeys : ∀ (keys : Finset Key) (state : LoadBalancerRuntimeBackendState),
      (overrides.stateEntries keys state).map (·.key) = keys.sort (· ≤ ·) := by
    intro keys state
    simp [stateEntries, Function.comp_def]
  rw [snapshot, ((perm_insertionSort _ _).map _).nodup_iff, map_append, map_append,
    hkeys, hkeys, hkeys, nodup_append', nodup_append']
  refine ⟨⟨Finset.sort_nodup _ _, Finset.sort_nodup _ _, ?_⟩, Finset.sort_nodup _ _, ?_⟩
  · intro k hk hk'
    exact Finset.disjoint_left.1 h.drain_disabled ((Finset.mem_sort _).1 hk)
      ((Finset.mem_sort _).1 hk')
  · intro k hk hk'
    have hfor := (Finset.mem_sort _).1 hk'
    rcases mem_append.1 hk with hk | hk
    · exact Finset.disjoint_left.1 h.drain_forcedDown ((Finset.mem_sort _).1 hk) hfor
    · exact Finset.disjoint_left.1 h.disabled_forcedDown ((Finset.mem_sort _).1 hk) hfor

theorem keysIn_snapshot_states (overrides : RuntimeBackendPolicyOverrides) :
    keysIn .drained overrides.snapshot.states = overrides.drain ∧
    keysIn .disabled overrides.snapshot.states = overrides.disabled ∧
    keysIn .forcedDown overrides.snapshot.states = overrides.forcedDown := by
  refine ⟨Finset.ext fun key => ?_, Finset.ext fun key => ?_, Finset.ext fun key => ?_⟩
  all_goals
    rw [mem_keysIn]
    constructor
    · rintro ⟨entry, hentry, hstate, rfl⟩
      simpa [hstate] using (mem_snapshot_states.1 hentry).1
    · intro hkey
      exact ⟨⟨key, _, (overrides.changedAtUnixSecs.lookup key).getD 0⟩,
        mem_snapshot_states.2 ⟨by simp [hkey], rfl⟩, rfl, rfl⟩

/-- The times that are read are those of the members that have an override. -/
theorem lookup_snapshot_times (h : overrides.Kept) (key : Key) (time : ℕ) :
    (AList.insertAll (overrides.snapshot.states.map timeEntry) ∅).lookup key = some time ↔
      overrides.state key ≠ none ∧ overrides.changedAtUnixSecs.lookup key = some time := by
  refine (lookup_insertAll_map (snapshot_states_nodup h) key time).trans ?_
  rw [state_ne_none_iff]
  have htimed := h.timed key
  rw [state_ne_none_iff, ← lookup_isSome] at htimed
  constructor
  · rintro ⟨entry, hentry, rfl, rfl⟩
    obtain ⟨hset, htime⟩ := mem_snapshot_states.1 hentry
    have hset : entry.key ∈ overrides.drain ∨ entry.key ∈ overrides.disabled ∨
        entry.key ∈ overrides.forcedDown := by tauto
    obtain ⟨changed, hchanged⟩ := Option.isSome_iff_exists.1 (htimed hset)
    rw [htime, hchanged]
    exact ⟨hset, rfl⟩
  · rintro ⟨hset, htime⟩
    rcases hset with hset | hset | hset
    · exact ⟨⟨key, .drained, time⟩, mem_snapshot_states.2 ⟨by simp [hset], by simp [htime]⟩, rfl,
        rfl⟩
    · exact ⟨⟨key, .disabled, time⟩,
        mem_snapshot_states.2 ⟨by simp [hset], by simp [htime]⟩, rfl, rfl⟩
    · exact ⟨⟨key, .forcedDown, time⟩, mem_snapshot_states.2 ⟨by simp [hset], by simp [htime]⟩, rfl,
        rfl⟩

theorem mem_snapshot_weights {entry : RuntimeBackendPolicyWeightSnapshot} :
    entry ∈ overrides.snapshot.weights ↔ overrides.weights.lookup entry.key = some entry.weight ∧
      entry.changedAtUnixSecs =
        (overrides.weightChangedAtUnixSecs.lookup entry.key).getD 0 := by
  rw [snapshot, mem_insertionSort, mem_map]
  constructor
  · rintro ⟨e, he, rfl⟩
    exact ⟨mem_lookup_iff.2 he, rfl⟩
  · rintro ⟨hweight, htime⟩
    refine ⟨⟨entry.key, entry.weight⟩, mem_lookup_iff.1 hweight, ?_⟩
    rw [← htime]

theorem length_snapshot_weights :
    overrides.snapshot.weights.length = overrides.weights.entries.length := by
  simp [snapshot, length_insertionSort]

theorem snapshot_weights_nodup : (overrides.snapshot.weights.map (·.key)).Nodup := by
  rw [snapshot, ((perm_insertionSort _ _).map _).nodup_iff, map_map]
  exact overrides.weights.nodupKeys

theorem lookup_snapshot_weights (key : Key) :
    (AList.insertAll (overrides.snapshot.weights.map weightEntry) ∅).lookup key =
      overrides.weights.lookup key := by
  refine Option.ext fun weight => ?_
  refine (lookup_insertAll_map snapshot_weights_nodup key weight).trans ?_
  constructor
  · rintro ⟨entry, hentry, rfl, rfl⟩
    exact (mem_snapshot_weights.1 hentry).1
  · intro hweight
    exact ⟨⟨key, weight, (overrides.weightChangedAtUnixSecs.lookup key).getD 0⟩,
      mem_snapshot_weights.2 ⟨hweight, rfl⟩, rfl, rfl⟩

theorem lookup_snapshot_weightTimes (h : overrides.Kept) (key : Key) :
    (AList.insertAll (overrides.snapshot.weights.map weightTimeEntry) ∅).lookup key =
      overrides.weightChangedAtUnixSecs.lookup key := by
  have hweighed := h.weighed key
  rw [← lookup_isSome, ← lookup_isSome] at hweighed
  refine Option.ext fun time => ?_
  refine (lookup_insertAll_map snapshot_weights_nodup key time).trans ?_
  constructor
  · rintro ⟨entry, hentry, rfl, rfl⟩
    obtain ⟨hweight, htime⟩ := mem_snapshot_weights.1 hentry
    obtain ⟨changed, hchanged⟩ := Option.isSome_iff_exists.1 (hweighed.2 (by simp [hweight]))
    rw [htime, hchanged]
    rfl
  · intro htime
    obtain ⟨weight, hweight⟩ := Option.isSome_iff_exists.1 (hweighed.1 (by simp [htime]))
    exact ⟨⟨key, weight, time⟩, mem_snapshot_weights.2 ⟨hweight, by simp [htime]⟩, rfl, rfl⟩

/-- What the export of the overrides stands for. -/
def readBack (overrides : RuntimeBackendPolicyOverrides) : RuntimeBackendPolicyOverrides where
  drain := overrides.drain
  disabled := overrides.disabled
  forcedDown := overrides.forcedDown
  weights := AList.insertAll (overrides.snapshot.weights.map weightEntry) ∅
  weightChangedAtUnixSecs := AList.insertAll (overrides.snapshot.weights.map weightTimeEntry) ∅
  changedAtUnixSecs := AList.insertAll (overrides.snapshot.states.map timeEntry) ∅

/-- The export is accepted exactly if there is room for the states and every weight is in range. -/
theorem prepareSnapshot_snapshot (h : overrides.Kept) {back : RuntimeBackendPolicyOverrides} :
    prepareSnapshot overrides.snapshot = .ok back ↔
      overrides.drain.card + overrides.disabled.card + overrides.forcedDown.card ≤
        MAX_RUNTIME_BACKEND_POLICY_OVERRIDE_ENTRIES ∧
      (∀ key weight, overrides.weights.lookup key = some weight →
        weight ≠ 0 ∧ weight ≤ MAX_RUNTIME_BACKEND_WEIGHT) ∧ back = overrides.readBack := by
  have hstate : ∀ entry ∈ overrides.snapshot.states, Persistent entry := by
    intro entry hentry
    rcases (mem_snapshot_states.1 hentry).1 with ⟨-, h⟩ | ⟨-, h⟩ | ⟨-, h⟩ <;> simp [Persistent, h]
  have hrange : (∀ entry ∈ overrides.snapshot.weights, InRange entry) ↔
      ∀ key weight, overrides.weights.lookup key = some weight →
        weight ≠ 0 ∧ weight ≤ MAX_RUNTIME_BACKEND_WEIGHT := by
    constructor
    · intro hval key weight hweight
      exact hval ⟨key, weight, (overrides.weightChangedAtUnixSecs.lookup key).getD 0⟩
        (mem_snapshot_weights.2 ⟨hweight, rfl⟩)
    · intro hweights entry hentry
      exact hweights entry.key entry.weight (mem_snapshot_weights.1 hentry).1
  obtain ⟨hdrain, hoff, hfor⟩ := keysIn_snapshot_states overrides
  rw [prepareSnapshot_eq_ok_iff, length_snapshot_states, length_snapshot_weights, hrange, hdrain,
    hoff, hfor]
  simp only [h.weights_length, snapshot_states_nodup h, snapshot_weights_nodup, and_true, true_and]
  exact ⟨fun hback => ⟨hback.1, hback.2.2⟩, fun hback => ⟨hback.1, hstate, hback.2⟩⟩

/-- The overrides come back as they were exactly if they could be exported. -/
theorem same_readBack_iff (h : overrides.Kept) :
    (∃ back, prepareSnapshot overrides.snapshot = .ok back ∧ Same overrides back) ↔
      overrides.Exportable := by
  constructor
  · rintro ⟨back, hback, hsame⟩
    obtain ⟨hstates, hweights, rfl⟩ := (prepareSnapshot_snapshot h).1 hback
    refine ⟨hstates, hweights, fun key hkey => ?_⟩
    -- a time that is there has been read, so its member has an override
    obtain ⟨time, htime⟩ := Option.isSome_iff_exists.1 (lookup_isSome.2 hkey)
    rw [hsame.changedAtUnixSecs] at htime
    exact ((lookup_snapshot_times h key time).1 htime).1
  · rintro ⟨hstates, hweights, htimes⟩
    refine ⟨overrides.readBack, (prepareSnapshot_snapshot h).2 ⟨hstates, hweights, rfl⟩,
      rfl, rfl, rfl, fun key => (lookup_snapshot_weights key).symm,
      fun key => (lookup_snapshot_weightTimes h key).symm, fun key => Option.ext fun time => ?_⟩
    rw [readBack, lookup_snapshot_times h]
    refine ⟨fun htime => ⟨htimes key ?_, htime⟩, And.right⟩
    exact lookup_isSome.1 (Option.isSome_iff_exists.2 ⟨time, htime⟩)

end RuntimeBackendPolicyOverrides

namespace LoadBalancerPersistenceState

variable {state : LoadBalancerPersistenceState} {now : Instant} {liveKeys : Finset Key}

/-- The session of a key, if it is not over and its backend is there. -/
def liveSession (state : LoadBalancerPersistenceState) (now : Instant) (liveKeys : Finset Key)
    (key : Bytes) : Option LoadBalancerPersistenceEntry :=
  (state.table.lookup key).filter fun entry =>
    now < entry.expiresAt ∧ entry.backendKey ∈ liveKeys

/-- The same session, up to the rounding of its end to whole seconds. -/
structure Rounded (a b : LoadBalancerPersistenceEntry) : Prop where
  backendKey : a.backendKey = b.backendKey
  expires_lt : a.expiresAt < b.expiresAt + Duration.fromSecs 1
  lt_expires : b.expiresAt < a.expiresAt + Duration.fromSecs 1

theorem mem_snapshot_entries {entry : LoadBalancerPersistenceEntrySnapshot} :
    entry ∈ (state.snapshot now liveKeys).entries ↔
      ∃ session, state.liveSession now liveKeys entry.key = some session ∧
        entry = state.entrySnapshot now ⟨entry.key, session⟩ := by
  rw [snapshot, mem_insertionSort, mem_map]
  constructor
  · rintro ⟨e, he, rfl⟩
    obtain ⟨he, hlive⟩ := mem_filter.1 he
    exact ⟨e.2, Option.filter_eq_some_iff.2 ⟨mem_lookup_iff.2 he, hlive⟩, rfl⟩
  · rintro ⟨session, hsession, heq⟩
    obtain ⟨hlookup, hlive⟩ := Option.filter_eq_some_iff.1 hsession
    exact ⟨⟨entry.key, session⟩, mem_filter.2 ⟨mem_lookup_iff.1 hlookup, hlive⟩,
      heq.symm⟩

theorem snapshot_entries_nodup : ((state.snapshot now liveKeys).entries.map (·.key)).Nodup := by
  rw [snapshot, ((perm_insertionSort _ _).map _).nodup_iff, map_map]
  exact (Sublist.map Sigma.fst filter_sublist).nodup state.table.nodupKeys

theorem length_snapshot_entries :
    (state.snapshot now liveKeys).entries.length ≤ state.table.entries.length := by
  rw [snapshot, length_insertionSort, length_map]
  exact length_filter_le _ _

/-- The remaining time of a session that is kept: at least a second, no longer than sessions live,
and within a second of what it was. -/
theorem entrySnapshot_spec {now exp : ℕ} (hlive : now < exp)
    (hle : exp ≤ now + Duration.fromSecs state.ttlSecs) (key : Bytes) (bkey : Key) :
    let remaining := (state.entrySnapshot now ⟨key, bkey, exp⟩).ttlRemainingSecs
    (remaining ≠ 0 ∧ remaining ≤ state.ttlSecs) ∧
      exp < now + Duration.fromSecs remaining + Duration.fromSecs 1 ∧
      now + Duration.fromSecs remaining < exp + Duration.fromSecs 1 := by
  simp only [entrySnapshot, Duration.asSecs, Duration.fromSecs] at hle ⊢
  omega

/-- The sessions that are read back. -/
theorem lookup_snapshot_sessions (h : state.Kept now) (key : Bytes) :
    Option.Rel Rounded (state.liveSession now liveKeys key)
      ((AList.insertAll ((state.snapshot now liveKeys).entries.map (sessionEntry now)) ∅).lookup
        key) := by
  have hlookup : ∀ session, (insertAll ((state.snapshot now liveKeys).entries.map
      (sessionEntry now)) ∅).lookup key = some session ↔
        ∃ entry ∈ (state.snapshot now liveKeys).entries, entry.key = key ∧
          ⟨entry.backendKey, now + Duration.fromSecs entry.ttlRemainingSecs⟩ = session :=
    lookup_insertAll_map snapshot_entries_nodup key
  cases hsession : state.liveSession now liveKeys key with
  | none =>
    cases hback : (insertAll
        ((state.snapshot now liveKeys).entries.map (sessionEntry now)) ∅).lookup key with
    | none => exact .none
    | some back =>
      obtain ⟨entry, hentry, rfl, -⟩ := (hlookup back).1 hback
      obtain ⟨session, hlive, -⟩ := mem_snapshot_entries.1 hentry
      rw [hsession] at hlive
      cases hlive
  | some session =>
    obtain ⟨hentry, hlive⟩ := Option.filter_eq_some_iff.1 hsession
    rw [decide_eq_true_eq] at hlive
    obtain ⟨-, hlt, hgt⟩ := entrySnapshot_spec hlive.1 (h.expires_le key session hentry) key
      session.backendKey
    have hback := (hlookup _).2 ⟨state.entrySnapshot now ⟨key, session⟩,
      mem_snapshot_entries.2 ⟨session, hsession, rfl⟩, rfl, rfl⟩
    rw [hback]
    exact .some ⟨rfl, hlt, hgt⟩

/-- The sessions come back exactly if no live one has an empty key. -/
theorem sessions_readBack_iff (h : state.Kept now) :
    (∃ table, state.prepareSnapshot now liveKeys (state.snapshot now liveKeys) = .ok table ∧
      ∀ key, Option.Rel Rounded (state.liveSession now liveKeys key) (table.lookup key)) ↔
      state.liveSession now liveKeys [] = none := by
  have hmem : (state.snapshot now liveKeys).entries.filter (·.backendKey ∈ liveKeys) =
      (state.snapshot now liveKeys).entries := by
    refine filter_eq_self.2 fun entry hentry => ?_
    obtain ⟨session, hsession, heq⟩ := mem_snapshot_entries.1 hentry
    have hlive := (Option.filter_eq_some_iff.1 hsession).2
    rw [decide_eq_true_eq] at hlive
    rw [heq, decide_eq_true_eq]
    exact hlive.2
  simp only [prepareSnapshot, if_neg (not_lt.2 (length_snapshot_entries.trans h.length_le)),
    prepareEntries_eq_ok_iff, hmem]
  constructor
  · rintro ⟨table, ⟨hents, -⟩, -⟩
    by_contra hsome
    obtain ⟨session, hsession⟩ := Option.ne_none_iff_exists'.1 hsome
    exact (hents (state.entrySnapshot now ⟨[], session⟩)
      (mem_snapshot_entries.2 ⟨session, hsession, rfl⟩)).named rfl
  · intro hnone
    refine ⟨_, ⟨fun entry hentry => ?_, ⟨snapshot_entries_nodup, by simp [notMem_empty]⟩, rfl⟩,
      lookup_snapshot_sessions h⟩
    obtain ⟨session, hsession, heq⟩ := mem_snapshot_entries.1 hentry
    obtain ⟨hlookup, hlive⟩ := Option.filter_eq_some_iff.1 hsession
    rw [decide_eq_true_eq] at hlive
    obtain ⟨hleft, hle⟩ :=
      (entrySnapshot_spec hlive.1 (h.expires_le _ session hlookup) entry.key session.backendKey).1
    refine ⟨fun hnil => ?_, h.key_length _ ?_, heq ▸ hleft, heq ▸ hle⟩
    · rw [hnil, hnone] at hsession
      cases hsession
    · exact lookup_isSome.1 (Option.isSome_iff_exists.2 ⟨session, hlookup⟩)

end LoadBalancerPersistenceState

namespace UpstreamLoadBalancer

/-- The session of a key, if it is not over and its backend is there. -/
def liveSession (pool : UpstreamLoadBalancer) (now : Instant) (key : Bytes) :
    Option LoadBalancerPersistenceEntry :=
  pool.persistence.bind (·.liveSession now pool.snapshot.liveKeys key)

/-- The pool's export, read back at once, gives the overrides and the live sessions again. -/
def RoundTrips (pool : UpstreamLoadBalancer) (now : Instant) : Prop :=
  ∃ count after,
    pool.restoreRuntimeStateSnapshot now (pool.runtimeStateSnapshot now) = .ok (count, after) ∧
    pool.backendPolicy.runtime.Same after.backendPolicy.runtime ∧
    ∀ key, Option.Rel LoadBalancerPersistenceState.Rounded (pool.liveSession now key)
      (after.persistence.bind (·.table.lookup key))

/-- No live session has an empty key, and the overrides are read back. -/
structure Exportable (pool : UpstreamLoadBalancer) (now : Instant) : Prop where
  runtime : pool.backendPolicy.runtime.Exportable
  named : pool.liveSession now [] = none

variable {pool : UpstreamLoadBalancer} {now : Instant}

theorem roundTrips_iff (h : pool.Kept now) : pool.RoundTrips now ↔ pool.Exportable now := by
  have hruntime := RuntimeBackendPolicyOverrides.same_readBack_iff h.runtime
  cases hpers : pool.persistence with
  | none =>
    constructor
    · rintro ⟨count, after, hrestored, hsame, -⟩
      obtain ⟨runtime, table, hprep, -, rfl, -⟩ := restoreRuntimeStateSnapshot_ok hrestored
      exact ⟨hruntime.1 ⟨_, hprep, hsame⟩, by simp [liveSession, hpers]⟩
    · rintro ⟨hexp, -⟩
      obtain ⟨runtime, hprep, hsame⟩ := hruntime.2 hexp
      refine ⟨0, pool.withRuntime runtime, ?_, hsame, fun key => ?_⟩
      · simp [restoreRuntimeStateSnapshot, runtimeStateSnapshot, hprep, preparePersistence, hpers]
      · rw [liveSession, withRuntime, hpers]
        exact .none
  | some persistence =>
    have hsessions : (∃ table, persistence.prepareSnapshot now pool.snapshot.liveKeys
        (persistence.snapshot now pool.snapshot.liveKeys) = .ok table ∧ _) ↔ _ :=
      LoadBalancerPersistenceState.sessions_readBack_iff (h.persistence persistence hpers)
    have hlive : ∀ key, pool.liveSession now key =
        persistence.liveSession now pool.snapshot.liveKeys key := by
      intro key
      rw [liveSession, hpers]
      rfl
    constructor
    · rintro ⟨count, after, hrestored, hsame, hafter⟩
      obtain ⟨runtime, table, hprep, htable, rfl, heq⟩ :=
        restoreRuntimeStateSnapshot_ok hrestored
      simp only [preparePersistence, runtimeStateSnapshot, hpers, Option.map_some] at htable
      obtain ⟨es, hents, rfl⟩ := Fallible.map_eq_ok.1 htable
      refine ⟨hruntime.1 ⟨_, hprep, hsame⟩, ?_⟩
      rw [hlive]
      refine hsessions.1 ⟨es, hents, fun key => ?_⟩
      have hkey := hafter key
      rwa [hlive, heq, hpers] at hkey
    · rintro ⟨hexp, hnamed⟩
      obtain ⟨runtime, hprep, hsame⟩ := hruntime.2 hexp
      obtain ⟨table, htable, hround⟩ := hsessions.2 (hlive [] ▸ hnamed)
      refine ⟨table.entries.length, { pool.withRuntime runtime with
        persistence := some { persistence with table := table } }, ?_, hsame, fun key => ?_⟩
      · simp [restoreRuntimeStateSnapshot, runtimeStateSnapshot, hprep, preparePersistence,
          hpers, htable, withRuntime]
      · rw [hlive]
        exact hround key

/-- **From every state a pool comes to, and at every time from then on, its export brings back the
overrides and the live sessions exactly if no live session has an empty key, the overridden states
are not too many, the weights are in range, and no change time is left over.** -/
theorem restored_runtime_state_iff (hpool : pool.Fresh) (start elapsed : ℕ)
    (events : List (Duration × PoolOperation)) :
    let s := events.foldl TimedPool.step ⟨pool, start⟩
    s.pool.RoundTrips (s.clock + elapsed) ↔ s.pool.Exportable (s.clock + elapsed) :=
  roundTrips_iff ((TimedPool.kept_run hpool start events).mono (Nat.le_add_right _ _))

/-- The pool of one backend, with sessions by the cookie `sid`. -/
def cookiePool : UpstreamLoadBalancer :=
  { lonePool with
    persistence := some
      { mode := .cookie
        header := none
        cookie := some (ascii "sid")
        ttlSecs := 60
        tableMaxEntries := 16
        managedCookie := none
        table := ∅ } }

theorem cookiePool_fresh : cookiePool.Fresh := by
  refine ⟨rfl, fun p hp => ?_⟩
  obtain rfl := Option.some.inj hp
  rfl

/-- One request with the cookie, and the pool after it. -/
def afterCookie (cookie : String) : List (Duration × PoolOperation) :=
  [(5, .select plainEnvironment { plainRequest with cookieHeaders := [ascii cookie] } none)]

theorem exportable_of_empty {overrides : RuntimeBackendPolicyOverrides}
    (hstates : overrides.drain.card + overrides.disabled.card + overrides.forcedDown.card = 0)
    (hweights : overrides.weights.entries = []) (htime : overrides.changedAtUnixSecs.entries = []) :
    overrides.Exportable := by
  have hweights : overrides.weights = ∅ := ext hweights
  have htime : overrides.changedAtUnixSecs = ∅ := ext htime
  refine ⟨hstates.trans_le (Nat.zero_le _), by simp [hweights], fun key hkey => ?_⟩
  exact absurd (htime ▸ hkey) (notMem_empty key)

theorem restored_runtime_state_iff_named :
    ((afterCookie "sid=a").foldl TimedPool.step ⟨cookiePool, 0⟩).pool.RoundTrips
      (((afterCookie "sid=a").foldl TimedPool.step ⟨cookiePool, 0⟩).clock + 1) :=
  (restored_runtime_state_iff cookiePool_fresh 0 1 _).2
    ⟨exportable_of_empty (by decide +kernel) (by decide +kernel) (by decide +kernel),
      by decide +kernel⟩

/-- The session of a cookie without a value cannot be read back. -/
theorem empty_cookie_not_restored :
    cookiePool.Fresh ∧
      ¬ ((afterCookie "sid=").foldl TimedPool.step ⟨cookiePool, 0⟩).pool.RoundTrips
        ((afterCookie "sid=").foldl TimedPool.step ⟨cookiePool, 0⟩).clock := by
  refine ⟨cookiePool_fresh, fun h => ?_⟩
  have hnone := ((roundTrips_iff (TimedPool.kept_run cookiePool_fresh 0 _)).1 h).named
  have hsome : (((afterCookie "sid=").foldl TimedPool.step ⟨cookiePool, 0⟩).pool.liveSession 5
      []).isSome = true := by decide +kernel
  rw [show (5 : Instant) = ((afterCookie "sid=").foldl TimedPool.step ⟨cookiePool, 0⟩).clock
    from rfl, hnone] at hsome
  cases hsome

end UpstreamLoadBalancer

end Fluxheim.Balancer
