import Fluxheim.Balancer.RuntimeStateRoundTrip

/-!
# Restoring a snapshot, all or nothing

A pool is restored in place: both parts of a snapshot are prepared, and only then is either of them
committed.  So an error leaves everything as it was.  What is committed is the content of the
snapshot, except that a session is dropped if its backend is not a member, and that the sessions of
the pool stay where the pool or the snapshot has none.
-/

namespace Fluxheim.Balancer

open Ascii

namespace RuntimeBackendPolicyOverrides

/-- The overrides, weights and times are those of the snapshot. -/
structure Holds (snapshot : RuntimeBackendPolicySnapshot)
    (overrides : RuntimeBackendPolicyOverrides) : Prop where
  drain : ∀ key, key ∈ overrides.drain ↔
    ∃ entry ∈ snapshot.states, entry.state = .drained ∧ entry.key = key
  disabled : ∀ key, key ∈ overrides.disabled ↔
    ∃ entry ∈ snapshot.states, entry.state = .disabled ∧ entry.key = key
  forcedDown : ∀ key, key ∈ overrides.forcedDown ↔
    ∃ entry ∈ snapshot.states, entry.state = .forcedDown ∧ entry.key = key
  changedAtUnixSecs : ∀ key time, overrides.changedAtUnixSecs.lookup key = some time ↔
    ∃ entry ∈ snapshot.states, entry.key = key ∧ entry.changedAtUnixSecs = time
  weights : ∀ key weight, overrides.weights.lookup key = some weight ↔
    ∃ entry ∈ snapshot.weights, entry.key = key ∧ entry.weight = weight
  weightChangedAtUnixSecs : ∀ key time, overrides.weightChangedAtUnixSecs.lookup key = some time ↔
    ∃ entry ∈ snapshot.weights, entry.key = key ∧ entry.changedAtUnixSecs = time

theorem holds_of_prepareSnapshot {snapshot : RuntimeBackendPolicySnapshot}
    {prep : RuntimeBackendPolicyOverrides} (h : prepareSnapshot snapshot = .ok prep) :
    prep.Holds snapshot := by
  obtain ⟨-, hstates, -, hweights, -, rfl⟩ := prepareSnapshot_eq_ok_iff.1 h
  exact ⟨fun _ => mem_keysIn, fun _ => mem_keysIn, fun _ => mem_keysIn,
    AList.lookup_insertAll_map hstates, AList.lookup_insertAll_map hweights,
    AList.lookup_insertAll_map hweights⟩

end RuntimeBackendPolicyOverrides

namespace LoadBalancerPersistenceState

/-- The sessions are those of the snapshot whose backends are members, each with the time it has
left. -/
structure Holds (snapshot : LoadBalancerPersistenceSnapshot) (now : Instant)
    (liveKeys : Finset Key) (state : LoadBalancerPersistenceState) : Prop where
  sessions : ∀ key session, state.table.lookup key = some session ↔
    ∃ entry ∈ snapshot.entries, entry.backendKey ∈ liveKeys ∧ entry.key = key ∧
      session = ⟨entry.backendKey, now + Duration.fromSecs entry.ttlRemainingSecs⟩
  unexpired : ∀ key session, state.table.lookup key = some session → now < session.expiresAt

variable {state : LoadBalancerPersistenceState} {now : Instant} {liveKeys : Finset Key}

theorem holds_of_prepareSnapshot {snapshot : LoadBalancerPersistenceSnapshot}
    {table : AList fun _ : Bytes => LoadBalancerPersistenceEntry}
    (h : state.prepareSnapshot now liveKeys snapshot = .ok table) :
    Holds snapshot now liveKeys { state with table := table } := by
  rw [prepareSnapshot, Fallible.ite_error_eq_ok, prepareEntries_eq_ok_iff] at h
  obtain ⟨-, hents, ⟨hnod, -⟩, rfl⟩ := h
  have hsessions : ∀ key session, (AList.insertAll ((snapshot.entries.filter
      (·.backendKey ∈ liveKeys)).map (sessionEntry now)) ∅).lookup key = some session ↔
      ∃ e ∈ snapshot.entries, e.backendKey ∈ liveKeys ∧ e.key = key ∧
        session = ⟨e.backendKey, now + Duration.fromSecs e.ttlRemainingSecs⟩ := by
    intro key session
    refine (AList.lookup_insertAll_map hnod key session).trans ?_
    simp only [List.mem_filter, decide_eq_true_eq, and_assoc, @eq_comm _ session]
  refine ⟨hsessions, fun key session hlookup => ?_⟩
  obtain ⟨e, hentry, -, -, rfl⟩ := (hsessions key session).1 hlookup
  have hpos := pos_of_ne_zero (hents e hentry).left
  exact Nat.lt_add_of_pos_right (mul_pos hpos (by decide))

end LoadBalancerPersistenceState

namespace UpstreamLoadBalancer

/-- The prepared sessions take the place of the pool's. -/
def commitPersistence (table : AList fun _ : Bytes => LoadBalancerPersistenceEntry)
    (pool : UpstreamLoadBalancer) : UpstreamLoadBalancer :=
  { pool with persistence := pool.persistence.map fun persistence =>
      { persistence with table := table } }

/-- The steps of a restore, with what each leaves behind.  An error ends them. -/
def restoreInPlace (now : Instant) (snapshot : LoadBalancerRuntimeStateSnapshot) :
    ExceptT String (StateM UpstreamLoadBalancer) ℕ := do
  if snapshot.version ≠ LOAD_BALANCER_RUNTIME_STATE_VERSION then
    throw "unsupported load balancer runtime state version"
  let preparedPolicy ← ExceptT.mk (pure
    (RuntimeBackendPolicyOverrides.prepareSnapshot snapshot.runtimeOverrides))
  let pool ← get
  let preparedPersistence ← ExceptT.mk (pure (pool.preparePersistence now snapshot.persistence))
  let persistenceEntries := preparedPersistence.elim 0 (·.entries.length)
  modify (·.withRuntime preparedPolicy)
  match preparedPersistence with
  | none => pure ()
  | some table => modify (commitPersistence table)
  return persistenceEntries

/-- What is there after a restore, with its answer. -/
def restored (pool : UpstreamLoadBalancer) (now : Instant)
    (snapshot : LoadBalancerRuntimeStateSnapshot) : Except String ℕ × UpstreamLoadBalancer :=
  Fallible.exec (restoreInPlace now snapshot) pool

variable {pool : UpstreamLoadBalancer} {now : Instant}
  {snapshot : LoadBalancerRuntimeStateSnapshot}

theorem restored_eq : pool.restored now snapshot =
    match pool.restoreRuntimeStateSnapshot now snapshot with
    | .error e => (.error e, pool)
    | .ok (count, after) => (.ok count, after) := by
  rw [restored, restoreInPlace, restoreRuntimeStateSnapshot]
  by_cases hver : snapshot.version = LOAD_BALANCER_RUNTIME_STATE_VERSION
  · rw [if_neg (not_not.2 hver), if_neg (not_not.2 hver)]
    cases hpol : RuntimeBackendPolicyOverrides.prepareSnapshot snapshot.runtimeOverrides with
    | error e => simp
    | ok runtime =>
      cases htable : pool.preparePersistence now snapshot.persistence with
      | error e => simp [htable]
      | ok table => cases table <;> simp [htable, commitPersistence, -bind_pure_comp]
  · simp [hver]

/-- The pool after a restore that has succeeded: the overrides are those of the snapshot, and so
are the sessions where both the pool and the snapshot have some.  The rest is as before. -/
structure Restored (pool after : UpstreamLoadBalancer) (now : Instant)
    (snapshot : LoadBalancerRuntimeStateSnapshot) (count : ℕ) : Prop where
  overrides : after.backendPolicy.runtime.Holds snapshot.runtimeOverrides
  sessions : ∀ old ∈ pool.persistence, ∀ imported ∈ snapshot.persistence,
    ∃ new ∈ after.persistence, new.Holds imported now pool.snapshot.liveKeys ∧
      new = { old with table := new.table } ∧ count = new.table.entries.length
  sessions_kept : pool.persistence = none ∨ snapshot.persistence = none →
    after.persistence = pool.persistence ∧ count = 0
  others : after = { pool.withRuntime after.backendPolicy.runtime with
    persistence := after.persistence }

theorem preparePersistence_cases (pool : UpstreamLoadBalancer) (now : Instant)
    (imported : Option LoadBalancerPersistenceSnapshot) :
    (pool.persistence = none ∨ imported = none) ∧
        pool.preparePersistence now imported = .ok none ∨
      ∃ old snapshot, pool.persistence = some old ∧ imported = some snapshot ∧
        pool.preparePersistence now imported =
          (old.prepareSnapshot now pool.snapshot.liveKeys snapshot).map some := by
  unfold preparePersistence
  cases pool.persistence with
  | none => exact Or.inl ⟨Or.inl rfl, rfl⟩
  | some old =>
    cases imported with
    | none => exact Or.inl ⟨Or.inr rfl, rfl⟩
    | some snapshot => exact Or.inr ⟨old, snapshot, rfl, rfl, rfl⟩

/-- **A restore changes nothing, or all there is to change**: with an error the whole pool is as
before, and otherwise it has the content of the snapshot. -/
theorem restored_exactly_or_unchanged (pool : UpstreamLoadBalancer) (now : Instant)
    (snapshot : LoadBalancerRuntimeStateSnapshot) :
    (∃ e, pool.restored now snapshot = (.error e, pool)) ∨
      ∃ count after, pool.restored now snapshot = (.ok count, after) ∧
        pool.Restored after now snapshot count := by
  rw [restored_eq, restoreRuntimeStateSnapshot]
  split_ifs with hver
  · exact Or.inl ⟨_, rfl⟩
  cases hpol : RuntimeBackendPolicyOverrides.prepareSnapshot snapshot.runtimeOverrides with
  | error e => exact Or.inl ⟨e, rfl⟩
  | ok runtime =>
    have hhold := RuntimeBackendPolicyOverrides.holds_of_prepareSnapshot hpol
    rcases pool.preparePersistence_cases now snapshot.persistence with
      ⟨hnone, hprep⟩ | ⟨old, imported, hold, himp, hprep⟩
    · right
      refine ⟨0, pool.withRuntime runtime, by simp [hprep], hhold, ?_, fun _ => ⟨rfl, rfl⟩, rfl⟩
      rintro old hold imported himp
      rcases hnone with hnone | hnone
      · cases hnone.symm.trans hold
      · cases hnone.symm.trans himp
    · cases htable : old.prepareSnapshot now pool.snapshot.liveKeys imported with
      | error e => exact Or.inl ⟨e, by simp [hprep, htable]⟩
      | ok table =>
        right
        refine ⟨table.entries.length, commitPersistence table (pool.withRuntime runtime),
          by simp [hprep, htable, commitPersistence], hhold, ?_, ?_, rfl⟩
        · rintro old' hold' imported' himp'
          obtain rfl := Option.some.inj (hold.symm.trans hold')
          obtain rfl := Option.some.inj (himp.symm.trans himp')
          have hnew : (commitPersistence table (pool.withRuntime runtime)).persistence =
              some { old with table := table } := congrArg (Option.map _) hold
          exact ⟨_, hnew, LoadBalancerPersistenceState.holds_of_prepareSnapshot htable, rfl, rfl⟩
        · intro hnone
          simp [hold, himp] at hnone

/-- A session of the pool. -/
def ownSession : LoadBalancerPersistenceEntry := ⟨backendKey loneBackend, 7⟩

/-- The pool of one backend, with a session on it. -/
def sessionPool : UpstreamLoadBalancer :=
  commitPersistence ((∅ : AList fun _ : Bytes => LoadBalancerPersistenceEntry).insert [97]
    ownSession) cookiePool

/-- A session on a backend that is not a member. -/
def foreignEntry : LoadBalancerPersistenceEntrySnapshot := ⟨[98], 0, 5⟩

/-- The sessions of the pool stay if the snapshot has no part for them, and a session of the
snapshot is dropped if its backend is no member. -/
theorem restored_not_exactly :
    (∃ count after, sessionPool.restored 0 ⟨1, ⟨[], []⟩, none⟩ = (.ok count, after) ∧
      ∃ state ∈ after.persistence, state.table.lookup [97] = some ownSession) ∧
    (∃ count after, cookiePool.restored 0 ⟨1, ⟨[], []⟩, some ⟨[foreignEntry]⟩⟩ =
        (.ok count, after) ∧
      ∃ state ∈ after.persistence, state.table.lookup [98] = none) := by
  refine ⟨⟨0, sessionPool.withRuntime {}, ?_, _, rfl, by decide +kernel⟩,
    ⟨0, commitPersistence ∅ (cookiePool.withRuntime {}), ?_, _, rfl, by decide +kernel⟩⟩
  · rfl
  · rfl

end UpstreamLoadBalancer

end Fluxheim.Balancer
