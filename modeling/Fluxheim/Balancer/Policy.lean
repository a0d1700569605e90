import Fluxheim.Balancer.Pool

/-!
# Which backends a selection may offer

A selection goes through its passes, from the strictest on, and a pass offers the backends that the
policy lets through it: no drained or disabled member and none the retry has tried, and backups,
priorities, localities and limits as the pass has them.
-/

namespace Fluxheim.Balancer

open Ascii

/-- The priority groups in use, from the highest down. -/
def sortedPriorityGroups (priority : AList fun _ : Key => ℕ) : List ℕ :=
  ((priority.entries.map Sigma.snd).toFinset.sort (· ≤ ·)).reverse

def RETRY_EXCLUDED_SLOTS : ℕ := 11

theorem length_noneExcluded :
    (List.replicate RETRY_EXCLUDED_SLOTS (none : Option Key)).length = RETRY_EXCLUDED_SLOTS :=
  List.length_replicate

/-- What decides which members may be offered. -/
structure BackendSelectionPolicy where
  backup : Finset Key
  drain : Finset Key
  disabled : Finset Key
  retryExcluded : List (Option Key)
  runtime : RuntimeBackendPolicyOverrides
  priority : AList fun _ : Key => ℕ
  localities : AList fun _ : Key => Bytes
  preferredLocalities : Finset Bytes
  maxInFlight : AList fun _ : Key => ℕ
  priorityGroups : List ℕ
  priorityGroupMinActive : ℕ
  healthWeights : AList fun _ : Key => ℕ
  retryExcluded_length : retryExcluded.length = RETRY_EXCLUDED_SLOTS
  priorityGroups_eq : priorityGroups = sortedPriorityGroups priority

/-- The part of a proxy configuration that the policy is made from. -/
structure ProxyConfig where
  upstreams : List Bytes
  upstreamPriorityGroups : List ℕ := []
  upstreamMaxInFlight : List ℕ := []
  upstreamLocalities : List Bytes := []
  preferredUpstreamLocalities : List Bytes := []
  upstreamPriorityGroupMinActive : ℕ := 1
  backupUpstreams : List Bytes := []
  drainUpstreams : List Bytes := []
  disabledUpstreams : List Bytes := []

section Config

variable (parse : Bytes → Option SocketAddr)

/-- A value for every upstream whose address can be read. -/
def backendValues {V : Type} (upstreams : List Bytes) (values : List V) : AList fun _ : Key => V :=
  (upstreams.zip values).foldl
    (fun table entry =>
      match parse entry.1 with
      | none => table
      | some addr => table.insert (backendAuthorityKey addr.text) entry.2) ∅

variable (config : ProxyConfig)

/-- The priority groups. -/
def backendPriorityGroups : AList fun _ : Key => ℕ :=
  backendValues parse config.upstreams config.upstreamPriorityGroups

/-- The limits on requests in flight. -/
def backendMaxInFlight : AList fun _ : Key => ℕ :=
  backendValues parse config.upstreams config.upstreamMaxInFlight

/-- The localities, in lower case. -/
def backendLocalities : AList fun _ : Key => Bytes :=
  backendValues parse config.upstreams (config.upstreamLocalities.map (·.map lower))

/-- The keys of the addresses that parse. -/
def backendKeys (upstreams : List Bytes) : Finset Key :=
  ((upstreams.filterMap parse).map fun addr => backendAuthorityKey addr.text).toFinset

/-- The policy of a configuration. -/
def BackendSelectionPolicy.fromConfig : BackendSelectionPolicy where
  backup := backendKeys parse config.backupUpstreams
  drain := backendKeys parse config.drainUpstreams
  disabled := backendKeys parse config.disabledUpstreams
  retryExcluded := List.replicate RETRY_EXCLUDED_SLOTS none
  runtime := {}
  priority := backendPriorityGroups parse config
  localities := backendLocalities parse config
  preferredLocalities := (config.preferredUpstreamLocalities.map (·.map lower)).toFinset
  maxInFlight := backendMaxInFlight parse config
  priorityGroups := sortedPriorityGroups (backendPriorityGroups parse config)
  priorityGroupMinActive := config.upstreamPriorityGroupMinActive
  healthWeights := ∅
  retryExcluded_length := length_noneExcluded
  priorityGroups_eq := rfl

end Config

/-- How strict a pass is. -/
structure SelectionPass where
  minimumPriorityGroup : Option ℕ
  allowBackup : Bool
  ignoreSlowStart : Bool
  ignoreLocality : Bool

namespace BackendSelectionPolicy

variable (policy : BackendSelectionPolicy)

/-- The policy of a retry, which leaves the members it has tried alone.  There are eleven slots. -/
def excludeAttempted (addresses : List SocketAddr) : Option BackendSelectionPolicy :=
  if h : RETRY_EXCLUDED_SLOTS < addresses.length then none
  else
    some { policy with
      retryExcluded :=
        addresses.map (fun addr => some (backendAuthorityKey addr.text)) ++
          List.replicate (RETRY_EXCLUDED_SLOTS - addresses.length) none
      retryExcluded_length := by
        rw [List.length_append, List.length_map, List.length_replicate]
        omega }

/-- Drained by the configuration or at run time. -/
def isDrained (key : Key) : Bool := key ∈ policy.drain || policy.runtime.isDrained key

/-- Disabled, or tried by the retry. -/
def isDisabled (key : Key) : Bool :=
  policy.retryExcluded.contains (some key) || key ∈ policy.disabled ||
    policy.runtime.isDisabled key

/-- The pass ignores localities, or prefers that of the member. -/
def localityPermits (key : Key) (pass : SelectionPass) : Bool :=
  if pass.ignoreLocality || policy.preferredLocalities = ∅ then true
  else (policy.localities.lookup key).any (· ∈ policy.preferredLocalities)

variable (backend : FluxBackend)

/-- The policy lets the backend through the pass. -/
def permits (pass : SelectionPass) (counters : BackendConnectionCounters) : Bool :=
  let key := backendKey backend
  !policy.isDisabled key && !policy.isDrained key &&
    (pass.allowBackup || key ∉ policy.backup) &&
    pass.minimumPriorityGroup.all (· ≤ (policy.priority.lookup key).getD 0) &&
    policy.localityPermits key pass &&
    (policy.maxInFlight.lookup key).all (counters.count backend < ·)

/-- The last group to be tried. -/
def isLowestPriorityGroup (group : ℕ) : Bool := policy.priorityGroups.getLast? == some group

/-- The limit on requests in flight. -/
def maxInFlightFor : Option ℕ := policy.maxInFlight.lookup (backendKey backend)

/-- A weight is at least one, with the share that health checks leave it rounded up. -/
def effectiveWeight : ℕ :=
  let key := backendKey backend
  let base := max 1 ((policy.runtime.weight key).getD backend.weight)
  max 1 <|
    match policy.healthWeights.lookup key with
    | none => base
    | some percent => min USIZE_MAX (min USIZE_MAX (base * percent) + 99) / 100

theorem effectiveWeight_pos : 0 < policy.effectiveWeight backend :=
  lt_of_lt_of_le one_pos (le_max_left _ _)

/-- Members that are gone are forgotten. -/
def pruneStale (liveKeys : Finset Key) : BackendSelectionPolicy :=
  { policy with
    runtime := policy.runtime.pruneStale liveKeys
    healthWeights := policy.healthWeights.retainKeys (· ∈ liveKeys) }

/-- The groups in the order they are tried. -/
def selectionPriorityGroups : List (Option ℕ) :=
  if policy.priorityGroups = [] then [none] else policy.priorityGroups.map some

/-- The passes: preferred localities first and then all, each without backups, with backups, and
without backups and without slow start, each from the highest priority group down. -/
def selectionPasses : List SelectionPass :=
  [false, true].flatMap fun ignoreLocality =>
    if ignoreLocality && policy.preferredLocalities = ∅ then []
    else
      [(false, false), (true, false), (false, true)].flatMap fun flags =>
        policy.selectionPriorityGroups.map fun group =>
          { minimumPriorityGroup := group
            allowBackup := flags.1
            ignoreSlowStart := flags.2
            ignoreLocality := ignoreLocality }

end BackendSelectionPolicy

/-- What a selection reads. -/
structure SelectionContext where
  snapshot : BackendContainerSnapshot
  passiveHealth : Option PassiveHealthState
  counters : BackendConnectionCounters
  backendPolicy : BackendSelectionPolicy
  now : Instant

/-- The question slow start is asked about a backend. -/
def slowStartPermits (now : Instant) (backend : FluxBackend) :
    Option SlowStartState → Bool × Option SlowStartState
  | none => (true, none)
  | some state =>
    ((state.permits now (backendKey backend)).1,
      some (state.permits now (backendKey backend)).2)

namespace SelectionContext

variable (context : SelectionContext) (pass : SelectionPass) (backend : FluxBackend)

/-- The part of the test that slow start has no say in. -/
def admits : Bool :=
  context.snapshot.ready backend && context.backendPolicy.permits backend pass context.counters

variable (slowStart : Option SlowStartState)

/-- The test without passive health; slow start may draw a sample. -/
def backendCandidateBaseAllowed : Bool × Option SlowStartState :=
  if context.admits pass backend then
    if pass.ignoreSlowStart then (true, slowStart)
    else slowStartPermits context.now backend slowStart
  else (false, slowStart)

/-- The same without a draw. -/
def backendCandidateBaseAllowedReadOnly : Bool :=
  context.admits pass backend &&
    (pass.ignoreSlowStart ||
      slowStart.all (·.permitsReadOnly context.now (backendKey backend)))

/-- The pass that counts the members passive health has left. -/
def floorPass : SelectionPass where
  minimumPriorityGroup := none
  allowBackup := true
  ignoreSlowStart := true
  ignoreLocality := true

/-- The members that are not ejected. -/
def nonEjectedCandidateCount (health : PassiveHealthState) : ℕ :=
  (context.snapshot.backends.filter fun backend =>
    context.admits floorPass backend && !health.isEjected context.now backend).length

/-- An ejected backend is used while there are fewer others than the floor. -/
def passiveHealthCandidateAllowed : Bool :=
  match context.passiveHealth with
  | none => true
  | some health =>
    if !health.isEjected context.now backend then true
    else
      let floor := health.minHealthyBackends
      0 < floor && min floor (context.nonEjectedCandidateCount health) < floor

/-- The test of a candidate. -/
def backendCandidateAllowed : Bool × Option SlowStartState :=
  let base := context.backendCandidateBaseAllowed pass backend slowStart
  (base.1 && context.passiveHealthCandidateAllowed backend, base.2)

/-- The test without a draw. -/
def backendCandidateAllowedReadOnly (backend : FluxBackend) : Bool :=
  context.backendCandidateBaseAllowedReadOnly pass backend slowStart &&
    context.passiveHealthCandidateAllowed backend

/-- The group has members enough to be used alone. -/
def priorityActivationSatisfied : Bool :=
  let minActive := context.backendPolicy.priorityGroupMinActive
  if pass.minimumPriorityGroup.isNone || minActive ≤ 1 ||
      pass.minimumPriorityGroup.any context.backendPolicy.isLowestPriorityGroup then
    true
  else
    minActive ≤ min minActive
      (context.snapshot.backends.filter
        (context.backendCandidateAllowedReadOnly pass slowStart)).length

end SelectionContext

end Fluxheim.Balancer
