import Fluxheim.Balancer.Upstream

/-!
# Changes of a pool at run time, and its exported state

What an administrator can change in a pool by the name of a member, what a pool exports of the
things it remembers and reads back, and everything that can happen to a pool as time goes on.
-/

namespace Fluxheim.Balancer

open Ascii

def LOAD_BALANCER_RUNTIME_STATE_VERSION : ℕ := 1

/-- What a pool exports. -/
structure LoadBalancerRuntimeStateSnapshot where
  version : ℕ
  runtimeOverrides : RuntimeBackendPolicySnapshot
  persistence : Option LoadBalancerPersistenceSnapshot

/-- The answer to a change of state. -/
structure LoadBalancerRuntimeBackendMutation where
  member : Bytes
  state : LoadBalancerRuntimeBackendState
  address : Bytes
  backendAlias : Option Bytes

/-- The answer to a change of weight. -/
structure LoadBalancerRuntimeBackendWeightMutation where
  member : Bytes
  configuredWeight : ℕ
  effectiveWeight : ℕ
  runtimeWeightOverride : Option ℕ
  address : Bytes
  backendAlias : Option Bytes

/-- An ejection is forgotten. -/
def PassiveHealthState.clearKey (key : Key) (state : PassiveHealthState) : PassiveHealthState :=
  { state with backends := state.backends.erase key }

/-- A ramp begins. -/
def SlowStartState.resetAt (key : Key) (restartAt : Instant) (state : SlowStartState) :
    SlowStartState :=
  { state with backends := state.backends.insert key restartAt }

namespace BackendSelectionPolicy

variable (policy : BackendSelectionPolicy)

/-- What was changed of a member is forgotten. -/
def clearRuntimeKey (key : Key) : BackendSelectionPolicy :=
  { policy with
    runtime := policy.runtime.clearKey key
    healthWeights := policy.healthWeights.erase key }

end BackendSelectionPolicy

/-- Weights count only where backends are compared with each other. -/
def UpstreamLoadBalancerInner.supportsRuntimeWeightOverride : UpstreamLoadBalancerInner → Bool
  | .roundRobin | .leastConnections | .leastSessions | .leastTime _ => true
  | _ => false

namespace UpstreamLoadBalancer

variable (pool : UpstreamLoadBalancer)

/-- A member is named by its address or its alias. -/
def memberMatches (member : Bytes) (backend : FluxBackend) : Bool :=
  backend.addr.text == member ||
    (pool.backendAliases.lookup (backendKey backend)).any (eqIgnoreCase · member)

/-- The one backend that matches, so far in `matched`. -/
def backendByMemberLoop (member : Bytes) :
    List FluxBackend → Option FluxBackend → Except String FluxBackend
  | [], none => .error "load balancer member is not configured in this pool"
  | [], some backend => .ok backend
  | backend :: backends, matched =>
    if pool.memberMatches member backend then
      match matched with
      | some _ => .error "load balancer member reference is ambiguous"
      | none => backendByMemberLoop member backends (some backend)
    else backendByMemberLoop member backends matched

/-- The member that an administrator names, by a text without white space. -/
def backendByMember (member : Bytes) : Except String FluxBackend :=
  let member := trimText member
  if member = [] ∨ 256 < member.length ∨ ∃ space ∈ whiteSpace, space <:+: member then
    .error "load balancer member must be a configured address or alias"
  else pool.backendByMemberLoop member pool.snapshot.backends none

/-! ### Changes -/

/-- The pool with other overrides. -/
def withRuntime (runtime : RuntimeBackendPolicyOverrides) : UpstreamLoadBalancer :=
  { pool with backendPolicy := { pool.backendPolicy with runtime := runtime } }

variable (now : Instant)

/-- A member that is resumed by hand starts again with a clean record. -/
def resumeMember (key : Key) : UpstreamLoadBalancer :=
  { pool with
    passiveHealth := pool.passiveHealth.map (·.clearKey key)
    slowStart := pool.slowStart.map (·.resetAt key now) }

/-- The state of a member is set. -/
def setRuntimeBackendState (unixSecs : ℕ) (member : Bytes)
    (state : LoadBalancerRuntimeBackendState) :
    Except String LoadBalancerRuntimeBackendMutation × UpstreamLoadBalancer :=
  match pool.backendByMember member with
  | .error e => (.error e, pool)
  | .ok backend =>
    let key := backendKey backend
    let changed := pool.backendPolicy.runtime.setState unixSecs key state
    let pool := pool.withRuntime changed.2
    if !changed.1 then (.error "load balancer runtime override table is full", pool)
    else
      (.ok { member := member
             state := state
             address := backend.addr.text
             backendAlias := pool.backendAliases.lookup key },
        if state = .manualResume then pool.resumeMember now key else pool)

/-- The weight of a member is set or cleared. -/
def setRuntimeBackendWeight (unixSecs : ℕ) (member : Bytes) (weight : Option ℕ) :
    Except String LoadBalancerRuntimeBackendWeightMutation × UpstreamLoadBalancer :=
  if !pool.inner.supportsRuntimeWeightOverride then
    (.error "runtime load-balancer weight overrides are available only for round-robin, least-connections, least-sessions, and least-time selections in this release",
      pool)
  else
    match pool.backendByMember member with
    | .error e => (.error e, pool)
    | .ok backend =>
      let key := backendKey backend
      let changed := pool.backendPolicy.runtime.setWeight unixSecs key weight
      let pool := pool.withRuntime changed.2
      if !changed.1 then (.error "load balancer runtime override table is full", pool)
      else
        (.ok { member := member
               configuredWeight := backend.weight
               effectiveWeight := pool.backendPolicy.effectiveWeight backend
               runtimeWeightOverride := pool.backendPolicy.runtime.weight key
               address := backend.addr.text
               backendAlias := pool.backendAliases.lookup key },
          pool)

/-- A member that has left is forgotten. -/
def clearRemovedBackendState (key : Key) : UpstreamLoadBalancer :=
  { pool with
    backendPolicy := pool.backendPolicy.clearRuntimeKey key
    passiveHealth := pool.passiveHealth.map (·.clearKey key) }

/-- The backends are others: a member has been removed, or updated in place. -/
def replaceMembers (snapshot : BackendContainerSnapshot) (removed : Option Key) :
    UpstreamLoadBalancer :=
  let pool := { pool with snapshot := snapshot }
  (removed.elim pool pool.clearRemovedBackendState).pruneStaleBackendState now

/-- All sessions end. -/
def clearPersistence : ℕ × UpstreamLoadBalancer :=
  match pool.persistence with
  | none => (0, pool)
  | some persistence =>
    (persistence.clear.1, { pool with persistence := some persistence.clear.2 })

/-- The export. -/
def runtimeStateSnapshot : LoadBalancerRuntimeStateSnapshot where
  version := LOAD_BALANCER_RUNTIME_STATE_VERSION
  runtimeOverrides := pool.backendPolicy.runtime.snapshot
  persistence := pool.persistence.map (·.snapshot now pool.snapshot.liveKeys)

/-- The table a snapshot stands for, where both the pool and the snapshot have one. -/
def preparePersistence (snapshot : Option LoadBalancerPersistenceSnapshot) :
    Except String (Option (AList fun _ : Bytes => LoadBalancerPersistenceEntry)) :=
  match pool.persistence, snapshot with
  | some persistence, some snapshot =>
    (persistence.prepareSnapshot now pool.snapshot.liveKeys snapshot).map some
  | _, _ => .ok none

/-- Both parts of a snapshot are read before either replaces what the pool has.  The answer is the
number of sessions read. -/
def restoreRuntimeStateSnapshot (snapshot : LoadBalancerRuntimeStateSnapshot) :
    Except String (ℕ × UpstreamLoadBalancer) :=
  if snapshot.version ≠ LOAD_BALANCER_RUNTIME_STATE_VERSION then
    .error "unsupported load balancer runtime state version"
  else do
    let runtime ← RuntimeBackendPolicyOverrides.prepareSnapshot snapshot.runtimeOverrides
    let table ← pool.preparePersistence now snapshot.persistence
    let pool := pool.withRuntime runtime
    match table with
    | none => .ok (0, pool)
    | some table =>
      .ok (table.entries.length,
        { pool with
          persistence := pool.persistence.map fun persistence =>
            { persistence with table := table } })

end UpstreamLoadBalancer

/-- What happens to a pool.  `replaceMembers` is a removal or an update of a member; `elsewhere` is
any change of what is neither an override nor a session: new members, health, counters, response
times. -/
inductive PoolOperation where
  | select (env : SelectionEnvironment) (request : LoadBalancerRequestView)
      (clientIp : Option IpAddr)
  | selectExcluding (env : SelectionEnvironment) (request : LoadBalancerRequestView)
      (clientIp : Option IpAddr) (attempted : List SocketAddr)
  | setRuntimeBackendState (unixSecs : ℕ) (member : Bytes)
      (state : LoadBalancerRuntimeBackendState)
  | setRuntimeBackendWeight (unixSecs : ℕ) (member : Bytes) (weight : Option ℕ)
  | replaceMembers (snapshot : BackendContainerSnapshot) (removed : Option Key)
  | clearPersistence
  | restoreRuntimeStateSnapshot (snapshot : LoadBalancerRuntimeStateSnapshot)
  | elsewhere (other : UpstreamLoadBalancer)

namespace UpstreamLoadBalancer

/-- The pool after an operation.  The clock is the pool's, not the environment's. -/
def operate (pool : UpstreamLoadBalancer) (now : Instant) : PoolOperation → UpstreamLoadBalancer
  | .select env request clientIp => (pool.select { env with now := now } request clientIp).2
  | .selectExcluding env request clientIp attempted =>
    (pool.selectExcluding { env with now := now } request clientIp attempted).2
  | .setRuntimeBackendState unixSecs member state =>
    (pool.setRuntimeBackendState now unixSecs member state).2
  | .setRuntimeBackendWeight unixSecs member weight =>
    (pool.setRuntimeBackendWeight unixSecs member weight).2
  | .replaceMembers snapshot removed => pool.replaceMembers now snapshot removed
  | .clearPersistence => pool.clearPersistence.2
  | .restoreRuntimeStateSnapshot snapshot =>
    match pool.restoreRuntimeStateSnapshot now snapshot with
    | .error _ => pool
    | .ok (_, pool) => pool
  | .elsewhere other =>
    { other.withRuntime pool.backendPolicy.runtime with persistence := pool.persistence }

end UpstreamLoadBalancer

/-- A pool and the time. -/
structure TimedPool where
  pool : UpstreamLoadBalancer
  clock : Instant

/-- An operation, some time after the one before. -/
def TimedPool.step (s : TimedPool) (e : Duration × PoolOperation) : TimedPool where
  pool := s.pool.operate (s.clock + e.1) e.2
  clock := s.clock + e.1

end Fluxheim.Balancer
