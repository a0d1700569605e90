import Fluxheim.Balancer.SelectionRing
import Fluxheim.Balancer.Persistence

/-!
# The load balancer of a pool

One request to a pool: the backend its session is on, or a fresh selection, given out with a permit;
and one retry, which leaves the members it has tried alone.
-/

namespace Fluxheim.Balancer

open Ascii

/-- How many selections go by before the pool forgets members that are gone. -/
def BACKEND_STATE_PRUNE_INTERVAL : ℕ := 1024

/-- The pool with everything it remembers. -/
structure UpstreamLoadBalancer where
  snapshot : BackendContainerSnapshot
  inner : UpstreamLoadBalancerInner
  keySource : LoadBalanceKeySource
  backendAliases : AList fun _ : Key => Bytes
  passiveHealth : Option PassiveHealthState
  slowStart : Option SlowStartState
  persistence : Option LoadBalancerPersistenceState
  roundRobinCursor : UInt64
  statePruneCounter : UInt64
  counters : BackendConnectionCounters
  backendPolicy : BackendSelectionPolicy
  maxIterations : ℕ
  entropy : ℕ → UInt64

/-- What became of the session. -/
inductive LoadBalancerPersistenceOutcome where
  | hit
  | miss
  | fallback
  deriving DecidableEq

/-- A selected backend.  The permit counts on the key's counter, and the reporter reports on the
key. -/
structure SelectedUpstream where
  backend : FluxBackend
  backendAlias : Option Bytes := none
  permit : Option Key := none
  reporter : Option Key := none
  persistenceOutcome : Option LoadBalancerPersistenceOutcome := none
  managedAffinityCookie : Option Bytes := none
  deriving DecidableEq

/-- What a selection meets: the time, the process's secrets, and the counts that its exchanges for
a permit find when other requests come in between, for a remembered backend and for a fresh one. -/
structure SelectionEnvironment where
  now : Instant
  secrets : RouteSecrets
  codec : ManagedCookieCodec
  observedHit : List ℕ := []
  observedFresh : List ℕ := []

namespace UpstreamLoadBalancer

variable (pool : UpstreamLoadBalancer) (now : Instant)

/-- What a selection reads of the pool. -/
def context : SelectionContext where
  snapshot := pool.snapshot
  passiveHealth := pool.passiveHealth
  counters := pool.counters
  backendPolicy := pool.backendPolicy
  now := now

/-- What a selection changes. -/
def selectionState : SelectionState where
  slowStart := pool.slowStart
  roundRobinCursor := pool.roundRobinCursor
  entropy := pool.entropy

/-- The pool after a selection. -/
def withSelectionState (s : SelectionState) : UpstreamLoadBalancer :=
  { pool with
    slowStart := s.slowStart
    roundRobinCursor := s.roundRobinCursor
    entropy := s.entropy }

/-- The algorithm uses response times. -/
def hasLatencyState : Bool :=
  match pool.inner with
  | .leastTime _ => true
  | _ => false

/-- What is remembered of members that are gone. -/
def pruneStaleBackendState : UpstreamLoadBalancer :=
  let liveKeys := pool.snapshot.liveKeys
  { pool with
    backendPolicy := pool.backendPolicy.pruneStale liveKeys
    persistence := pool.persistence.map (·.pruneStaleForLiveBackends now liveKeys)
    passiveHealth := pool.passiveHealth.map (·.pruneStale now liveKeys)
    slowStart := pool.slowStart.map (·.pruneStale liveKeys)
    inner :=
      match pool.inner with
      | .leastTime latency => .leastTime (latency.pruneStale liveKeys)
      | inner => inner }

/-- Now and then members that are gone are forgotten. -/
def pruneStaleBackendStatePeriodically : UpstreamLoadBalancer :=
  let pruned :=
    if pool.statePruneCounter.toNat % BACKEND_STATE_PRUNE_INTERVAL = 0 then
      pool.pruneStaleBackendState now
    else pool
  { pruned with statePruneCounter := pool.statePruneCounter + 1 }

/-- The pass a remembered backend is tested in. -/
def persistencePass : SelectionPass where
  minimumPriorityGroup := none
  allowBackup := true
  ignoreSlowStart := false
  ignoreLocality := false

/-- The backend of a session may be used. -/
def backendAvailableForPersistence (backend : FluxBackend) : Bool :=
  let key := backendKey backend
  pool.snapshot.ready backend &&
    !pool.passiveHealth.any (·.keyIsCurrentlyEjected now key) &&
    pool.slowStart.all (·.permitsReadOnly now key) &&
    pool.backendPolicy.permits backend persistencePass pool.counters &&
    !pool.backendPolicy.isDisabled key && !pool.backendPolicy.isDrained key

/-- A backend is given out, if there is a permit for it. -/
def prepareSelected (backend : FluxBackend) (outcome : Option LoadBalancerPersistenceOutcome)
    (observed : List ℕ) : Option (SelectedUpstream × UpstreamLoadBalancer) :=
  (pool.counters.permit backend (pool.backendPolicy.maxInFlightFor backend) observed).map
    fun counters =>
      let key := backendKey backend
      ({ backend := backend
         backendAlias := pool.backendAliases.lookup key
         permit := some key
         reporter := if pool.passiveHealth.isSome || pool.hasLatencyState then some key else none
         persistenceOutcome := outcome },
        { pool with counters := counters })

/-- A new cookie of the pool's own, from two random numbers. -/
def newManagedCookie (codec : ManagedCookieCodec) (state : LoadBalancerPersistenceState) :
    Option (Bytes × Bytes) × UpstreamLoadBalancer :=
  match state.managedCookie with
  | none => (none, pool)
  | some config =>
    let key := toLeBytes (pool.entropy 0) ++ toLeBytes (pool.entropy 1)
    ((codec.token config.name key).map fun token => (key, config.headerValue token),
      { pool with entropy := fun n => pool.entropy (n + 2) })

/-- The sessions are counted only where the algorithm looks at them. -/
def freshSelectionNeedsPersistenceCounts (persistenceKey : Option Bytes)
    (persistence : LoadBalancerPersistenceState) : Bool :=
  (match pool.inner with | .leastSessions => true | _ => false) &&
    (!persistence.isManagedCookie || persistenceKey.isSome)

variable (env : SelectionEnvironment)

/-- The session of a fresh selection is remembered, with a new cookie where that is the key. -/
def rememberSelected (persistenceKey : Option Bytes)
    (selected : SelectedUpstream) : SelectedUpstream × UpstreamLoadBalancer :=
  match pool.persistence, persistenceKey with
  | none, _ => (selected, pool)
  | some persistence, some key =>
    (selected,
      { pool with
        persistence := some (persistence.record env.now key (backendKey selected.backend)) })
  | some persistence, none =>
    match pool.newManagedCookie env.codec persistence with
    | (none, pool) => (selected, pool)
    | (some (key, cookie), pool) =>
      ({ selected with managedAffinityCookie := some cookie },
        { pool with
          persistence :=
            some (persistence.record env.now key (backendKey selected.backend)) })

variable (request : LoadBalancerRequestView)

/-- A selection by the algorithm, recorded as a session. -/
def selectFresh (clientIp : Option IpAddr) (persistenceKey : Option Bytes)
    (outcome : Option LoadBalancerPersistenceOutcome) :
    Option SelectedUpstream × UpstreamLoadBalancer :=
  let pool := pool.pruneStaleBackendStatePeriodically env.now
  let counted := pool.persistence.filter (pool.freshSelectionNeedsPersistenceCounts persistenceKey)
  let chosen := pool.inner.select (pool.context env.now)
    { key := pool.keySource.requestKey request clientIp
      maxIterations := pool.maxIterations
      persistenceEntryCounts := counted.elim ∅ (·.runtimeCounts env.now)
      secrets := env.secrets } pool.selectionState
  let pool := pool.withSelectionState chosen.2
  match chosen.1 with
  | none => (none, pool)
  | some backend =>
    match pool.prepareSelected backend outcome env.observedFresh with
    | none => (none, pool)
    | some (selected, pool) =>
      let remembered := pool.rememberSelected env persistenceKey selected
      (some remembered.1, remembered.2)

/-- The backend of the session, or a fresh one. -/
def select (env : SelectionEnvironment) (request : LoadBalancerRequestView)
    (clientIp : Option IpAddr) : Option SelectedUpstream × UpstreamLoadBalancer :=
  let persistenceKey := pool.persistence.bind (·.key env.codec request clientIp)
  match pool.persistence, persistenceKey with
  | some persistence, some key =>
    match persistence.lookup env.now key with
    | (some persisted, _) =>
      match (pool.snapshot.backends.find? (backendKey · = persisted)).bind fun backend =>
          if pool.backendAvailableForPersistence env.now backend then
            pool.prepareSelected backend (some .hit) env.observedHit
          else none with
      | some (selected, pool) => (some selected, pool)
      | none => pool.selectFresh env request clientIp (some key) (some .fallback)
    | (none, persistence) =>
      { pool with persistence := some persistence }.selectFresh env request clientIp
        (some key) (some .miss)
  | _, _ =>
    pool.selectFresh env request clientIp persistenceKey (persistenceKey.map fun _ => .miss)

/-- A retry works on a copy of the pool with the tried members excluded; the shared state is the
pool's. -/
def selectExcluding (clientIp : Option IpAddr) (attempted : List SocketAddr) :
    Option SelectedUpstream × UpstreamLoadBalancer :=
  match pool.backendPolicy.excludeAttempted attempted with
  | none => (none, pool)
  | some policy =>
    let r := { pool with backendPolicy := policy }.select env request clientIp
    (r.1,
      { r.2 with
        backendPolicy :=
          { r.2.backendPolicy with
            retryExcluded := pool.backendPolicy.retryExcluded
            retryExcluded_length := pool.backendPolicy.retryExcluded_length } })

end UpstreamLoadBalancer

end Fluxheim.Balancer
