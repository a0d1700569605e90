import Fluxheim.Lib.Ascii
import Fluxheim.Balancer.Overrides

/-!
# The state of a pool

An instant is a number of nanoseconds, and one selection takes place at one instant.  Reads that
only drop an expired entry, or add one that says nothing, leave the state as it is.
-/

namespace Fluxheim.Balancer

open Ascii

/-- Nanoseconds since some start. -/
abbrev Instant := ℕ
/-- Nanoseconds. -/
abbrev Duration := ℕ

namespace Duration

/-- Whole seconds. -/
def fromSecs (n : ℕ) : Duration := n * 1000000000
/-- The full seconds of a duration. -/
def asSecs (d : Duration) : ℕ := d / 1000000000
/-- The full milliseconds. -/
def asMillis (d : Duration) : ℕ := d / 1000000

end Duration

def FNV_OFFSET_BASIS : UInt64 := 0xcbf29ce484222325

/-- The FNV-1a hash from a seed on. -/
def fnv1a64WithSeed (bytes : Bytes) (seed : UInt64) : UInt64 :=
  bytes.foldl (fun hash byte => (hash ^^^ byte.toUInt64) * 0x00000100000001b3) seed

/-- The plain hash. -/
def fnv1a64 (bytes : Bytes) : UInt64 := fnv1a64WithSeed bytes FNV_OFFSET_BASIS

/-- The eight bytes of a word, the lowest first. -/
def toLeBytes (n : UInt64) : Bytes :=
  (List.range 8).map fun i => (n >>> UInt64.ofNat (8 * i)).toUInt8

/-- A socket address: the text of the IP address, and the port. -/
structure SocketAddr where
  v6 : Bool := false
  ip : Bytes
  port : ℕ
  deriving DecidableEq

/-- An address as it is written. -/
def SocketAddr.text (addr : SocketAddr) : Bytes :=
  if addr.v6 then ascii "[" ++ addr.ip ++ ascii "]:" ++ decimal addr.port
  else addr.ip ++ ascii ":" ++ decimal addr.port

/-- A member of a pool. -/
structure FluxBackend where
  addr : SocketAddr
  weight : ℕ
  deriving DecidableEq

/-- The key of an address. -/
def backendAuthorityKey (authority : Bytes) : Key := fnv1a64 authority

/-- The key of a member. -/
def backendKey (backend : FluxBackend) : Key := backendAuthorityKey backend.addr.text

/-- What a health check has found, and the administrator's switch. -/
structure FluxBackendHealth where
  healthy : Bool := true
  enabled : Bool := true

/-- Healthy and enabled. -/
def FluxBackendHealth.ready (health : FluxBackendHealth) : Bool := health.healthy && health.enabled

/-- The backends of a pool, in the order of the set, and what the health checks say of them. -/
structure BackendContainerSnapshot where
  backends : List FluxBackend
  health : AList fun _ : Key => FluxBackendHealth
  healthCheckEnabled : Bool

namespace BackendContainerSnapshot

/-- The member may be used; unknown ones only without health checks. -/
def ready (snapshot : BackendContainerSnapshot) (backend : FluxBackend) : Bool :=
  match snapshot.health.lookup (backendKey backend) with
  | none => !snapshot.healthCheckEnabled
  | some health => health.ready

/-- The keys of the members. -/
def liveKeys (snapshot : BackendContainerSnapshot) : Finset Key :=
  (snapshot.backends.map backendKey).toFinset

theorem backendKey_mem_liveKeys {snap : BackendContainerSnapshot} {backend : FluxBackend}
    (h : backend ∈ snap.backends) : backendKey backend ∈ snap.liveKeys :=
  List.mem_toFinset.2 (List.mem_map_of_mem h)

end BackendContainerSnapshot

/-- The number of permits out for each backend. -/
abbrev BackendConnectionCounters := Key → ℕ

def USIZE_MAX : ℕ := 2 ^ 64 - 1

namespace BackendConnectionCounters

/-- The requests in flight. -/
def count (counters : BackendConnectionCounters) (backend : FluxBackend) : ℕ :=
  counters (backendKey backend)

/-- The exchange loop of a permit: `current` is the value read, and `observed` are the values that
failing exchanges find instead.  The result is the value at which an exchange succeeds. -/
def exchange (maxInFlight : Option ℕ) : ℕ → List ℕ → Option ℕ
  | current, observed =>
    if maxInFlight.any (· ≤ current) then none
    else if current = USIZE_MAX then none
    else
      match observed with
      | [] => some current
      | found :: observed => exchange maxInFlight found observed

/-- A permit for the backend, and the counters with it. -/
def permit (counters : BackendConnectionCounters) (backend : FluxBackend)
    (maxInFlight : Option ℕ) (observed : List ℕ) : Option BackendConnectionCounters :=
  (exchange maxInFlight (counters.count backend) observed).map fun current =>
    Function.update counters (backendKey backend) (current + 1)

/-- An exchange succeeds at a value under the limit. -/
theorem exchange_lt {limit cur taken : ℕ} {obs : List ℕ}
    (h : exchange (some limit) cur obs = some taken) : taken < limit := by
  induction obs generalizing cur with
  | nil =>
    rw [exchange] at h
    split_ifs at h with hlimit hmax
    obtain rfl : cur = taken := by simpa using h
    simpa using hlimit
  | cons found obs ih =>
    rw [exchange] at h
    split_ifs at h
    exact ih h

/-- A permit raises the count of its backend by one, from a value under the limit. -/
theorem permit_some {cs cs' : BackendConnectionCounters} {backend : FluxBackend}
    {maxInFlight : Option ℕ} {obs : List ℕ}
    (h : cs.permit backend maxInFlight obs = some cs') :
    ∃ taken, cs'.count backend = taken + 1 ∧ ∀ limit ∈ maxInFlight, taken < limit := by
  obtain ⟨taken, ht, rfl⟩ := Option.map_eq_some_iff.1 h
  refine ⟨taken, by simp [count], ?_⟩
  rintro limit rfl
  exact exchange_lt ht

end BackendConnectionCounters

/-- When an ejection ends. -/
structure PassiveBackendHealth where
  ejectedUntil : Option Instant := none

/-- The ejected members, and the floor. -/
structure PassiveHealthState where
  minHealthyBackends : ℕ
  backends : AList fun _ : Key => PassiveBackendHealth

namespace PassiveHealthState

/-- The ejection is not over. -/
def keyIsCurrentlyEjected (state : PassiveHealthState) (now : Instant) (key : Key) : Bool :=
  ((state.backends.lookup key).bind (·.ejectedUntil)).any (now < ·)

/-- The backend is ejected. -/
def isEjected (state : PassiveHealthState) (now : Instant) (backend : FluxBackend) : Bool :=
  state.keyIsCurrentlyEjected now (backendKey backend)

/-- Members that are gone are forgotten once their ejection is over. -/
def pruneStale (now : Instant) (liveKeys : Finset Key) (state : PassiveHealthState) :
    PassiveHealthState :=
  { state with
    backends := state.backends.retainKeys fun key =>
      key ∈ liveKeys || state.keyIsCurrentlyEjected now key }

end PassiveHealthState

/-- When the members came up. -/
structure SlowStartState where
  durationSecs : ℕ
  backends : AList fun _ : Key => Instant
  sampleCounter : UInt64

namespace SlowStartState

/-- The length of the ramp. -/
def duration (state : SlowStartState) : Duration := .fromSecs state.durationSecs

/-- How far a backend has come, in thousandths. -/
def progressPerMille (state : SlowStartState) (elapsed : Duration) : ℕ :=
  max 1 (min 1000 (elapsed.asMillis * 1000 / state.duration.asMillis))

/-- A backend that is asked for is noted with the time if it is new.  Until its time is over it is
let in with the chance that its progress gives it, by a numbered sample. -/
def permits (now : Instant) (key : Key) (state : SlowStartState) : Bool × SlowStartState :=
  let startedAt := (state.backends.lookup key).getD now
  let state := { state with backends := state.backends.insert key startedAt }
  let elapsed := now - startedAt
  if state.duration = 0 ∨ state.duration ≤ elapsed then (true, state)
  else
    let bucket := (fnv1a64WithSeed (toLeBytes state.sampleCounter) key).toNat % 1000
    (bucket < state.progressPerMille elapsed,
      { state with sampleCounter := state.sampleCounter + 1 })

/-- The member has no ramp, or is through half of it. -/
def permitsReadOnly (state : SlowStartState) (now : Instant) (key : Key) : Bool :=
  match state.backends.lookup key with
  | none => true
  | some startedAt =>
    if state.duration = 0 then true
    else if state.duration ≤ now - startedAt then true
    else 500 ≤ state.progressPerMille (now - startedAt)

/-- Members that are gone are forgotten. -/
def pruneStale (liveKeys : Finset Key) (state : SlowStartState) : SlowStartState :=
  { state with backends := state.backends.retainKeys (· ∈ liveKeys) }

end SlowStartState

/-- A response time. -/
structure BackendLatencySample where
  micros : ℕ
  observedAt : Instant

/-- The age at which a sample is no longer used. -/
def LATENCY_RESAMPLE_AFTER : Duration := .fromSecs 30

/-- Response times by backend. -/
abbrev BackendLatencyState := AList fun _ : Key => BackendLatencySample

namespace BackendLatencyState

/-- The response time, if it is not too old. -/
def score (latency : BackendLatencyState) (now : Instant) (backend : FluxBackend) : Option ℕ :=
  ((latency.lookup (backendKey backend)).filter fun sample =>
    now - sample.observedAt < LATENCY_RESAMPLE_AFTER).map (·.micros)

/-- Members that are gone are forgotten. -/
def pruneStale (liveKeys : Finset Key) (latency : BackendLatencyState) : BackendLatencyState :=
  latency.retainKeys (· ∈ liveKeys)

end BackendLatencyState

end Fluxheim.Balancer
