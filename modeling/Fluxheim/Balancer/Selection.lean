import Fluxheim.Lib.Cascade
import Fluxheim.Balancer.Policy

/-!
# Selection algorithms

The ways of choosing a backend.  Each goes through the passes of the policy and takes what the first
pass with a candidate gives.  Here are those that choose among all candidates of a pass, or among a
few by random numbers or a hash.
-/

namespace Fluxheim.Balancer

open Ascii

/-- What a selection changes: slow start, the cursor of the round robin, and the random numbers
still to be drawn. -/
structure SelectionState where
  slowStart : Option SlowStartState
  roundRobinCursor : UInt64
  entropy : ℕ → UInt64

/-- The next random number. -/
def SelectionState.randomU64 (s : SelectionState) : UInt64 × SelectionState :=
  (s.entropy 0, { s with entropy := fun n => s.entropy (n + 1) })

/-- The secrets that seed the hashes of requests, drawn once per process. -/
structure RouteSecrets where
  fnv : UInt64
  consistent : UInt64
  maglev : UInt64

/-- What a selection is given of the request. -/
structure LoadBalancerSelectInputs where
  key : Option Bytes
  maxIterations : ℕ
  persistenceEntryCounts : AList fun _ : Key => ℕ
  secrets : RouteSecrets

/-- A selection, which may change the state. -/
abbrev Choice := SelectionState → Option FluxBackend × SelectionState

namespace SelectionContext

variable (context : SelectionContext) (pass : SelectionPass)

/-- The test of a candidate, with its effect on slow start. -/
def allowed (backend : FluxBackend) (s : SelectionState) : Bool × SelectionState :=
  let r := context.backendCandidateAllowed pass backend s.slowStart
  (r.1, { s with slowStart := r.2 })

/-- The passes in order, without those whose priority group has too few members. -/
def overPasses (withBackupPolicy : SelectionPass → Choice) : Choice :=
  Cascade.firstSome
    (fun pass s =>
      if !context.priorityActivationSatisfied pass s.slowStart then (none, s)
      else withBackupPolicy pass s)
    context.backendPolicy.selectionPasses

/-- The candidate whose share of the weight a number falls into. -/
def weightedCandidate : List (FluxBackend × ℕ) → ℕ → Option FluxBackend
  | [], _ => none
  | (backend, weight) :: candidates, target =>
    if target < weight then some backend else weightedCandidate candidates (target - weight)

/-- One pass of round robin. -/
def selectWeightedRoundRobinWithBackupPolicy : Choice := fun s =>
  let found := Cascade.filter (context.allowed pass) context.snapshot.backends s
  let candidates :=
    found.1.map fun backend => (backend, context.backendPolicy.effectiveWeight backend)
  let totalWeight := candidates.foldl (fun total c => min USIZE_MAX (total + c.2)) 0
  if totalWeight = 0 then (none, found.2)
  else
    (weightedCandidate candidates (found.2.roundRobinCursor.toNat % totalWeight),
      { found.2 with roundRobinCursor := found.2.roundRobinCursor + 1 })

/-- Round robin by weight. -/
def selectWeightedRoundRobin : Choice :=
  context.overPasses context.selectWeightedRoundRobinWithBackupPolicy

/-- The candidate with the lowest score, the first of them where several have it. -/
def leastLoop {γ : Type} (test : FluxBackend → SelectionState → Bool × SelectionState)
    (score : FluxBackend → γ) (isLower : γ → γ → Bool) :
    List FluxBackend → Option (FluxBackend × γ) → Choice
  | [], selected, s => (selected.map (·.1), s)
  | backend :: backends, selected, s =>
    let r := test backend s
    leastLoop test score isLower backends
      (if r.1 && selected.all (fun best => isLower (score backend) best.2) then
        some (backend, score backend)
      else selected) r.2

/-- The lowest score of a pass. -/
def selectLeastWithBackupPolicy {γ : Type} (score : FluxBackend → γ) (isLower : γ → γ → Bool)
    (pass : SelectionPass) : Choice :=
  leastLoop (context.allowed pass) score isLower context.snapshot.backends none

/-- Load per weight, compared by cross-multiplication. -/
def leastConnectionsScoreIsLower (candidate selected : ℕ × ℕ) : Bool :=
  min USIZE_MAX (candidate.1 * selected.2) < min USIZE_MAX (selected.1 * candidate.2)

/-- The requests in flight, and the weight. -/
def connectionScore (backend : FluxBackend) : ℕ × ℕ :=
  (context.counters.count backend, context.backendPolicy.effectiveWeight backend)

/-- The fewest requests in flight per weight. -/
def selectLeastConnections : Choice :=
  context.overPasses
    (context.selectLeastWithBackupPolicy context.connectionScore leastConnectionsScoreIsLower)

variable (persistenceEntryCounts : AList fun _ : Key => ℕ)

/-- The sessions, and the weight. -/
def sessionScore (backend : FluxBackend) : ℕ × ℕ :=
  ((persistenceEntryCounts.lookup (backendKey backend)).getD 0,
    context.backendPolicy.effectiveWeight backend)

/-- The fewest sessions per weight. -/
def selectLeastSessions : Choice :=
  context.overPasses
    (context.selectLeastWithBackupPolicy (context.sessionScore persistenceEntryCounts)
      leastConnectionsScoreIsLower)

/-- Time per weight first, and then load per weight. -/
def leastTimeScoreIsLower (candidate selected : ℕ × ℕ × ℕ) : Bool :=
  let candidateTime := candidate.1 * selected.2.2
  let selectedTime := selected.1 * candidate.2.2
  candidateTime < selectedTime ||
    candidateTime = selectedTime && leastConnectionsScoreIsLower candidate.2 selected.2

/-- The response time, then the requests in flight and the weight. -/
def timeScore (latency : BackendLatencyState) (backend : FluxBackend) : ℕ × ℕ × ℕ :=
  ((latency.score context.now backend).getD 0, context.connectionScore backend)

/-- The shortest response time. -/
def selectLeastTime (latency : BackendLatencyState) : Choice :=
  context.overPasses
    (context.selectLeastWithBackupPolicy (context.timeScore latency) leastTimeScoreIsLower)

/-- Every index as often as its backend has weight. -/
def weightedBackendIndices (backends : List FluxBackend) : List ℕ :=
  backends.zipIdx.flatMap fun entry => List.replicate (max 1 entry.1.weight) entry.2

/-- The test of a candidate that is tried once at most. -/
def randomCandidateAllowed (excludedKey : Option Key)
    (candidate : FluxBackend) (state : Finset Key × SelectionState) :
    Bool × (Finset Key × SelectionState) :=
  let key := backendKey candidate
  if excludedKey = some key ∨ key ∈ state.1 then (false, state)
  else
    let r := context.allowed pass candidate state.2
    (r.1, (insert key state.1, r.2))

/-- The backends from position `start` on, at most `count` of them. -/
def rotation (backends : List FluxBackend) (start count : ℕ) : List FluxBackend :=
  (List.range count).filterMap fun offset => backends[(start + offset) % backends.length]?

/-- A random candidate other than the excluded one. -/
def selectWeightedRandomCandidate (maxIterations : ℕ) (pass : SelectionPass)
    (excludedKey : Option Key) : Choice := fun s =>
  let backends := context.snapshot.backends
  let weighted := weightedBackendIndices backends
  if backends.isEmpty || weighted.isEmpty then (none, s)
  else
    let first := s.randomU64
    let drawn := (weighted[first.1.toNat % weighted.length]?.bind (backends[·]?)).toList
    let r := Cascade.find (context.randomCandidateAllowed pass excludedKey) drawn (∅, first.2)
    if r.1.isSome then (r.1, r.2.2)
    else
      let second := r.2.2.randomU64
      let others := rotation backends (second.1.toNat % backends.length)
        (min (max 1 maxIterations) backends.length)
      let r := Cascade.find (context.randomCandidateAllowed pass excludedKey) others
        (r.2.1, second.2)
      (r.1, r.2.2)

/-- The better of two random candidates. -/
def selectPowerOfTwoWithBackupPolicy (maxIterations : ℕ) (pass : SelectionPass) : Choice :=
  fun s =>
    match context.selectWeightedRandomCandidate maxIterations pass none s with
    | (none, s) => (none, s)
    | (some first, s) =>
      let r := context.selectWeightedRandomCandidate maxIterations pass
        (some (backendKey first)) s
      let second := r.1.getD first
      (some (if leastConnectionsScoreIsLower (context.connectionScore second)
          (context.connectionScore first) then second else first), r.2)

/-- The better of two. -/
def selectPowerOfTwo (maxIterations : ℕ) : Choice :=
  context.overPasses (context.selectPowerOfTwoWithBackupPolicy maxIterations)

/-- The indices after the first, each from the hash of the one before. -/
def fnvProbes (secret : UInt64) (length : ℕ) : ℕ → UInt64 → List ℕ
  | 0, _ => []
  | steps + 1, index =>
    let index := fnv1a64WithSeed (toLeBytes index) secret
    (index.toNat % length) :: fnvProbes secret length steps index

/-- The backends in the order the hash gives. -/
def fnvIndices (secret : UInt64) (key : Bytes) (maxIterations : ℕ) (weighted : List ℕ)
    (length : ℕ) : List ℕ :=
  let index := fnv1a64WithSeed key secret
  weighted[index.toNat % weighted.length]?.toList ++
    fnvProbes secret length (max 1 maxIterations - 1) index

/-- One pass by the hash. -/
def selectFnvHashWithBackupPolicy (inputs : LoadBalancerSelectInputs) (pass : SelectionPass) :
    Choice := fun s =>
  let backends := context.snapshot.backends
  let weighted := weightedBackendIndices backends
  if backends.isEmpty || weighted.isEmpty then (none, s)
  else
    let indices := fnvIndices inputs.secrets.fnv (inputs.key.getD []) inputs.maxIterations
      weighted backends.length
    let r := Cascade.find (context.randomCandidateAllowed pass none)
      (indices.filterMap (backends[·]?)) (∅, s)
    (r.1, r.2.2)

/-- The backend of a hash. -/
def selectFnvHash (inputs : LoadBalancerSelectInputs) : Choice :=
  context.overPasses (context.selectFnvHashWithBackupPolicy inputs)

end SelectionContext

end Fluxheim.Balancer
