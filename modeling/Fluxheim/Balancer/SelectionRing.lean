import Mathlib.Data.List.Destutter
import Fluxheim.Balancer.Selection

/-!
# Selection along an order given by the request

Selection along an order that the request's key gives.  The tables carry what their construction
gives them: the points of a ring are in the strict order of their hashes, and a Maglev table has its
full size.
-/

namespace Fluxheim.Balancer

open Ascii List

/-- One byte of the checksum CRC-32. -/
def crc32Byte (crc : UInt32) (byte : UInt8) : UInt32 :=
  (List.range 8).foldl
    (fun crc _ => if crc &&& 1 = 1 then (crc >>> 1) ^^^ 0xedb88320 else crc >>> 1)
    (crc ^^^ byte.toUInt32)

/-- The checksum that the source takes from the crate `crc32fast`. -/
def crc32 (bytes : Bytes) : UInt32 := ~~~ bytes.foldl crc32Byte 0xffffffff

/-- The checksum of the nine digits is the check value of the code. -/
example : crc32 (ascii "123456789") = 0xcbf43926 := by decide +kernel

/-- A point of the ring. -/
structure NginxKetamaPoint where
  hash : UInt32
  backendKey : Key

/-- The points of a backend of weight one. -/
def NGINX_KETAMA_POINT_MULTIPLE : ℕ := 160

/-- The ring. -/
structure NginxKetamaTable where
  points : List NginxKetamaPoint
  increasing : points.Pairwise (·.hash < ·.hash)

namespace NginxKetamaTable

/-- Four bytes, the lowest first. -/
def toLeBytes32 (n : UInt32) : Bytes :=
  (List.range 4).map fun i => (n >>> UInt32.ofNat (8 * i)).toUInt8

/-- The points of one backend, each hashed from the one before. -/
def ketamaPoints (base : Bytes) (key : Key) : ℕ → UInt32 → List NginxKetamaPoint
  | 0, _ => []
  | count + 1, previousHash =>
    let hash := crc32 (base ++ toLeBytes32 previousHash)
    ⟨hash, key⟩ :: ketamaPoints base key count hash

/-- The points of a backend. -/
def pushNginxKetamaPoints (backend : FluxBackend) : List NginxKetamaPoint :=
  ketamaPoints (backend.addr.ip ++ [0] ++ decimal backend.addr.port) (backendKey backend)
    (min USIZE_MAX (max 1 backend.weight * NGINX_KETAMA_POINT_MULTIPLE)) 0

/-- The points in the order of their hashes, one for each hash. -/
def sortedPoints (points : List NginxKetamaPoint) : List NginxKetamaPoint :=
  (points.insertionSort (·.hash ≤ ·.hash)).destutter (·.hash ≠ ·.hash)

theorem sortedPoints_increasing (points : List NginxKetamaPoint) :
    (sortedPoints points).Pairwise (·.hash < ·.hash) := by
  have hle : (sortedPoints points).Pairwise (·.hash ≤ ·.hash) :=
    (pairwise_insertionSort _ points).sublist (destutter_sublist _ _)
  have hne : (sortedPoints points).IsChain (·.hash ≠ ·.hash) := isChain_destutter _ _
  rw [← isChain_iff_pairwise, isChain_iff_forall_rel_of_append_cons_cons]
  intro a b before rest hsplit
  exact UInt32.lt_of_le_of_ne
    (isChain_iff_forall_rel_of_append_cons_cons.1 hle.isChain hsplit)
    (isChain_iff_forall_rel_of_append_cons_cons.1 hne hsplit)

/-- The ring of some backends. -/
def fromBackendIdentities (backends : List FluxBackend) : Except String NginxKetamaTable :=
  let points := backends.flatMap pushNginxKetamaPoints
  if points.isEmpty then
    .error "nginx-compatible consistent hash requires at least one backend"
  else .ok ⟨sortedPoints points, sortedPoints_increasing points⟩

/-- The distinct keys met on the ring from the hash of the request's key on. -/
def backendKeys (table : NginxKetamaTable) (key : Bytes) (maxIterations : ℕ) : List Key :=
  let count := table.points.length
  let start := table.points.findIdx (fun point => crc32 key ≤ point.hash) % count
  let limit := min (max 1 maxIterations) count
  let met := (List.range count).filterMap fun offset => table.points[(start + offset) % count]?
  met.foldl
    (fun keys point =>
      if limit ≤ keys.length ∨ point.backendKey ∈ keys then keys
      else keys ++ [point.backendKey]) []

end NginxKetamaTable

def MAGLEV_TABLE_SIZE : ℕ := 65537

/-- The table of slots. -/
structure MaglevTable where
  slots : List Key
  size : slots.length = MAGLEV_TABLE_SIZE

/-- The slots from that of the key on. -/
def MaglevTable.candidateKeys (table : MaglevTable) (secret : UInt64) (key : Bytes)
    (maxIterations : ℕ) : List Key :=
  let start := (fnv1a64WithSeed key secret).toNat % table.slots.length
  (List.range (min (max 1 maxIterations) table.slots.length)).filterMap fun offset =>
    table.slots[(start + offset) % table.slots.length]?

def U128_MAX : ℕ := 2 ^ 128 - 1

/-- The best hash of a backend's replicas. -/
def consistentBackendScore (secret : UInt64) (key : Bytes) (backendKey : Key) (weight : ℕ) :
    UInt64 :=
  (List.range (max 1 weight)).foldl
    (fun best replica =>
      let hash := fnv1a64WithSeed key secret
      let hash := fnv1a64WithSeed (toLeBytes backendKey) hash
      let hash := fnv1a64WithSeed (toLeBytes (UInt64.ofNat replica)) hash
      if best ≤ hash then hash else best) 0

/-- The totals that shares are taken of. -/
structure BoundedLoadSnapshot where
  totalConnections : ℕ
  totalWeight : ℕ
  factorPerMille : ℕ

namespace SelectionContext

variable (context : SelectionContext)

/-- The backends from the best score down; of equal scores the lower key comes first. -/
def consistentHashCandidates (secret : UInt64) (key : Bytes) : List FluxBackend :=
  let scored := context.snapshot.backends.map fun backend =>
    (consistentBackendScore secret key (backendKey backend)
      (context.backendPolicy.effectiveWeight backend), backendKey backend, backend)
  (scored.insertionSort fun a b => b.1 < a.1 ∨ a.1 = b.1 ∧ a.2.1 ≤ b.2.1).map (·.2.2)

/-- The totals over the candidates. -/
def boundedLoadSnapshot (pass : SelectionPass) (factorPerMille : ℕ)
    (slowStart : Option SlowStartState) : Option BoundedLoadSnapshot :=
  let counted := context.snapshot.backends.filter
    (context.backendCandidateAllowedReadOnly pass slowStart)
  let totalConnections := counted.foldl
    (fun total backend => min USIZE_MAX (total + context.counters.count backend)) 0
  let totalWeight := counted.foldl
    (fun total backend => min USIZE_MAX (total + context.backendPolicy.effectiveWeight backend)) 0
  if 0 < totalWeight ∧ 0 < totalConnections then
    some ⟨totalConnections, totalWeight, factorPerMille⟩
  else none

/-- The backend is not above its share, times the factor. -/
def boundedLoadPermits (bound : BoundedLoadSnapshot) (backend : FluxBackend) : Bool :=
  let left := min U128_MAX
    (min U128_MAX (context.counters.count backend * bound.totalWeight) * 1000)
  let right := min U128_MAX
    (min U128_MAX (bound.totalConnections * context.backendPolicy.effectiveWeight backend) *
      bound.factorPerMille)
  left ≤ right

variable (inputs : LoadBalancerSelectInputs)

/-- One pass in the order of the scores, with a bound or without. -/
def selectConsistentHashWithBackupPolicy
    (bound : Option BoundedLoadSnapshot) (pass : SelectionPass) : Choice := fun s =>
  let candidates :=
    context.consistentHashCandidates inputs.secrets.consistent (inputs.key.getD [])
  Cascade.find
    (fun backend s =>
      let r := context.allowed pass backend s
      (r.1 && bound.all (context.boundedLoadPermits · backend), r.2))
    (candidates.take (min (max 1 inputs.maxIterations) candidates.length)) s

/-- The best score. -/
def selectConsistentHash (inputs : LoadBalancerSelectInputs) : Choice :=
  context.overPasses (context.selectConsistentHashWithBackupPolicy inputs none)

/-- A pass with the bound, and then one without. -/
def selectBoundedLoadConsistentWithBackupPolicy
    (factorPerMille : ℕ) (pass : SelectionPass) : Choice := fun s =>
  match context.boundedLoadSnapshot pass factorPerMille s.slowStart with
  | none => context.selectConsistentHashWithBackupPolicy inputs none pass s
  | some bound =>
    match context.selectConsistentHashWithBackupPolicy inputs (some bound) pass s with
    | (some backend, s) => (some backend, s)
    | (none, s) => context.selectConsistentHashWithBackupPolicy inputs none pass s

/-- The best score under the bound. -/
def selectBoundedLoadConsistent (inputs : LoadBalancerSelectInputs) (factorPerMille : ℕ) : Choice :=
  context.overPasses (context.selectBoundedLoadConsistentWithBackupPolicy inputs factorPerMille)

/-- The first backend on the ring. -/
def selectNginxConsistentHash (table : NginxKetamaTable) : Choice :=
  context.overPasses fun pass =>
    Cascade.find (context.allowed pass)
      ((table.backendKeys (inputs.key.getD []) inputs.maxIterations).filterMap fun key =>
        context.snapshot.backends.find? (backendKey · = key))

/-- Of backends with one key the last counts, as in a table filled in order. -/
def selectMaglev (table : MaglevTable) : Choice :=
  context.overPasses fun pass =>
    Cascade.find (context.allowed pass)
      ((table.candidateKeys inputs.secrets.maglev (inputs.key.getD []) inputs.maxIterations
        ).filterMap fun key => context.snapshot.backends.reverse.find? (backendKey · = key))

end SelectionContext

/-- The algorithms. -/
inductive UpstreamLoadBalancerInner where
  | roundRobin
  | leastConnections
  | leastSessions
  | leastTime (latency : BackendLatencyState)
  | powerOfTwo
  | fnvHash
  | consistentHash
  | nginxConsistentHash (table : NginxKetamaTable)
  | boundedLoadConsistentHash (factorPerMille : ℕ)
  | maglevHash (table : MaglevTable)

/-- A selection by any of them. -/
def UpstreamLoadBalancerInner.select (context : SelectionContext)
    (inputs : LoadBalancerSelectInputs) : UpstreamLoadBalancerInner → Choice
  | .roundRobin => context.selectWeightedRoundRobin
  | .leastConnections => context.selectLeastConnections
  | .leastSessions => context.selectLeastSessions inputs.persistenceEntryCounts
  | .leastTime latency => context.selectLeastTime latency
  | .powerOfTwo => context.selectPowerOfTwo inputs.maxIterations
  | .fnvHash => context.selectFnvHash inputs
  | .consistentHash => context.selectConsistentHash inputs
  | .nginxConsistentHash table => context.selectNginxConsistentHash inputs table
  | .boundedLoadConsistentHash factorPerMille =>
    context.selectBoundedLoadConsistent inputs factorPerMille
  | .maglevHash table => context.selectMaglev inputs table

end Fluxheim.Balancer
