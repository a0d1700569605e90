import Mathlib.Algebra.Order.Ring.Rat
import Mathlib.Data.List.AList
import Mathlib.Logic.Function.Basic
import Fluxheim.Lib.Ascii

/-!
# The rate limit of a route

A token bucket for every client, in sixteen tables by a hash of the client's address, which are
pruned when they are full.  Times and delays are seconds, and the arithmetic on them is exact where
the source has `f64`.
-/

namespace Fluxheim.Server

/-- Whether a request may wait. -/
inductive RateLimitMode where
  | nodelay
  | delay
  deriving DecidableEq

def MAX_RATE_LIMIT_REQUESTS_PER_SECOND : ℕ := 1000000
def MAX_RATE_LIMIT_BURST : ℕ := 1000000
def MAX_RATE_LIMIT_TABLE_ENTRIES : ℕ := 1000000
def MAX_RATE_LIMIT_ENTRY_TTL_SECS : ℕ := 86400
def MAX_RATE_LIMIT_DELAY_MS : ℕ := 60000

/-- The limits. -/
structure RateLimitConfig where
  enabled : Bool := false
  requestsPerSecond : ℕ := 0
  burst : ℕ := 0
  status : ℕ := 429
  tableMaxEntries : ℕ := 65536
  entryTtlSecs : ℕ := 300
  mode : RateLimitMode := .nodelay
  maxDelayMs : ℕ := 1000
  rejectIndeterminate : Bool := false

/-- The field a configuration is refused for. -/
structure InvalidRateLimit where
  field : String
  deriving DecidableEq

/-- The name of a field in an error. -/
def rateLimitField (scope field : String) : String :=
  if scope ∈ ["vhosts.rate_limit", "vhosts.routes.rate_limit"] ∧
      field ∈ ["requests_per_second", "burst", "status", "table_max_entries", "entry_ttl_secs",
        "max_delay_ms"] then
    scope ++ "." ++ field
  else "rate_limit"

namespace RateLimitConfig

/-- The check that a loaded configuration passes. -/
def validate (config : RateLimitConfig) (scope : String) : Except InvalidRateLimit Unit :=
  if !config.enabled then .ok ()
  else if config.requestsPerSecond = 0 ∨
      MAX_RATE_LIMIT_REQUESTS_PER_SECOND < config.requestsPerSecond then
    .error ⟨rateLimitField scope "requests_per_second"⟩
  else if MAX_RATE_LIMIT_BURST < config.burst then .error ⟨rateLimitField scope "burst"⟩
  else if ¬ (400 ≤ config.status ∧ config.status ≤ 599) then
    .error ⟨rateLimitField scope "status"⟩
  else if config.tableMaxEntries = 0 ∨ MAX_RATE_LIMIT_TABLE_ENTRIES < config.tableMaxEntries then
    .error ⟨rateLimitField scope "table_max_entries"⟩
  else if config.entryTtlSecs = 0 ∨ MAX_RATE_LIMIT_ENTRY_TTL_SECS < config.entryTtlSecs then
    .error ⟨rateLimitField scope "entry_ttl_secs"⟩
  else if config.mode = .delay ∧ config.maxDelayMs = 0 then
    .error ⟨rateLimitField scope "max_delay_ms"⟩
  else if MAX_RATE_LIMIT_DELAY_MS < config.maxDelayMs then
    .error ⟨rateLimitField scope "max_delay_ms"⟩
  else .ok ()

/-- The defaults pass their own check. -/
example : ({} : RateLimitConfig).validate "vhosts.rate_limit" = .ok () := by decide

end RateLimitConfig

/-- A client's address, by its octets. -/
inductive IpAddr where
  | v4 (octets : Vector UInt8 4)
  | v6 (octets : Vector UInt8 16)
  deriving DecidableEq

/-- A client. -/
inductive NativeRateLimitKey where
  | ip (address : IpAddr)
  | indeterminate
  deriving DecidableEq

/-- The client of an address. -/
def NativeRateLimitKey.fromAddress : Option IpAddr → NativeRateLimitKey
  | some address => .ip address
  | none => .indeterminate

/-- The bucket of a client. -/
structure NativeRateLimitBucket where
  tokens : ℚ
  updatedAt : ℚ
  lastSeen : ℚ

/-- A table of buckets. -/
structure NativeRateLimitBuckets where
  entries : AList (fun _ : NativeRateLimitKey => NativeRateLimitBucket) := ∅
  pruneQueue : List NativeRateLimitKey := []
  lastPrunedAt : Option ℚ := none

def NATIVE_RATE_LIMIT_SHARDS : ℕ := 16

/-- The tables. -/
structure NativeRateLimitState where
  shards : Fin NATIVE_RATE_LIMIT_SHARDS → NativeRateLimitBuckets := fun _ => {}

/-- What becomes of a request. -/
inductive NativeRateLimitDecision where
  | allow
  | delay (wait : ℚ)
  | reject (status : ℕ)

/-- The limit of a route. -/
structure NativeRateLimit where
  enabled : Bool
  requestsPerSecond : ℚ
  burst : ℚ
  status : ℕ
  tableMaxEntries : ℕ
  entryTtl : ℚ
  mode : RateLimitMode
  maxDelay : ℚ
  rejectIndeterminate : Bool

/-- The limit of a configuration. -/
def NativeRateLimit.fromConfig (config : RateLimitConfig) : NativeRateLimit where
  enabled := config.enabled
  requestsPerSecond := config.requestsPerSecond
  burst := (if config.burst = 0 then max config.requestsPerSecond 1 else config.burst : ℕ)
  status := config.status
  tableMaxEntries := config.tableMaxEntries
  entryTtl := config.entryTtlSecs
  mode := config.mode
  maxDelay := config.maxDelayMs / 1000
  rejectIndeterminate := config.rejectIndeterminate

def NATIVE_RATE_LIMIT_SHARD_HASH_PRIME : UInt64 := 0x00000100000001b3

/-- The hash of some bytes; the source draws `seed` at random once for each process. -/
def nativeRateLimitShardHash (seed : UInt64) (bytes : List UInt8) : UInt64 :=
  bytes.foldl (fun hash byte => (hash ^^^ byte.toUInt64) * NATIVE_RATE_LIMIT_SHARD_HASH_PRIME) seed

/-- What is hashed. -/
def NativeRateLimitKey.bytes : NativeRateLimitKey → List UInt8
  | .ip (.v4 octets) => octets.toList
  | .ip (.v6 octets) => octets.toList
  | .indeterminate => Ascii.ascii "indeterminate"

/-- The table of a client. -/
def nativeRateLimitShard (seed : UInt64) (key : NativeRateLimitKey) :
    Fin NATIVE_RATE_LIMIT_SHARDS :=
  ⟨(nativeRateLimitShardHash seed key.bytes).toNat % NATIVE_RATE_LIMIT_SHARDS,
    Nat.mod_lt _ (by decide)⟩

def NATIVE_RATE_LIMIT_MIN_PRUNE_INTERVAL : ℚ := 1
def NATIVE_RATE_LIMIT_PRUNE_SCAN_LIMIT : ℕ := 128

/-- The time since then. -/
def saturatingDurationSince (now earlier : ℚ) : ℚ := max 0 (now - earlier)

/-- `scans` turns of the loop that goes through the queue. -/
def pruneScan (now ttl : ℚ) : ℕ → NativeRateLimitBuckets → NativeRateLimitBuckets
  | 0, buckets => buckets
  | scans + 1, buckets =>
    match buckets.pruneQueue with
    | [] => buckets
    | key :: queue =>
      match buckets.entries.lookup key with
      | none => pruneScan now ttl scans { buckets with pruneQueue := queue }
      | some bucket =>
        if ttl < saturatingDurationSince now bucket.lastSeen then
          pruneScan now ttl scans
            { buckets with entries := buckets.entries.erase key, pruneQueue := queue }
        else pruneScan now ttl scans { buckets with pruneQueue := queue ++ [key] }

variable (buckets : NativeRateLimitBuckets)

/-- Clients that have not been seen for long go. -/
def pruneNativeRateLimitEntries (now ttl : ℚ) (scanLimit : ℕ) : NativeRateLimitBuckets :=
  pruneScan now ttl (min scanLimit buckets.pruneQueue.length) buckets

/-- The last prune is long enough ago. -/
def shouldPrune (now : ℚ) : Bool :=
  match buckets.lastPrunedAt with
  | none => true
  | some lastPrunedAt =>
    NATIVE_RATE_LIMIT_MIN_PRUNE_INTERVAL ≤ saturatingDurationSince now lastPrunedAt

namespace NativeRateLimit

variable (limit : NativeRateLimit)

/-- The capacity of one table. -/
def maxEntries : ℕ := max ((limit.tableMaxEntries + 15) / NATIVE_RATE_LIMIT_SHARDS) 1

variable (buckets : NativeRateLimitBuckets)

/-- A new client finds the table full. -/
def tableFull (key : NativeRateLimitKey) : Prop :=
  key ∉ buckets.entries ∧ limit.maxEntries ≤ buckets.entries.keys.length

instance (buckets : NativeRateLimitBuckets) (key : NativeRateLimitKey) :
    Decidable (limit.tableFull buckets key) :=
  inferInstanceAs (Decidable (_ ∧ _))

/-- The table, pruned if a new client finds it full and that has not been done just before. -/
def makeRoom (now : ℚ) (key : NativeRateLimitKey) : NativeRateLimitBuckets :=
  if limit.tableFull buckets key ∧ shouldPrune buckets now = true then
    { pruneNativeRateLimitEntries buckets now limit.entryTtl NATIVE_RATE_LIMIT_PRUNE_SCAN_LIMIT with
      lastPrunedAt := some now }
  else buckets

/-- A bucket for the client: a full one, if it has none. -/
def ensureBucket (now : ℚ) (key : NativeRateLimitKey) : NativeRateLimitBuckets :=
  if key ∈ buckets.entries then buckets
  else
    { buckets with
      pruneQueue := buckets.pruneQueue ++ [key]
      entries := buckets.entries.insert key ⟨limit.burst, now, now⟩ }

/-- The bucket at a later time. -/
def refill (bucket : NativeRateLimitBucket) (now : ℚ) : ℚ :=
  min limit.burst
    (bucket.tokens + saturatingDurationSince now bucket.updatedAt * limit.requestsPerSecond)

/-- The decision, and the tokens left after it. -/
def decideTokens (tokens : ℚ) : ℚ × NativeRateLimitDecision :=
  if 1 ≤ tokens then (tokens - 1, .allow)
  else if limit.mode ≠ .delay ∨ tokens ≤ -limit.burst then (tokens, .reject limit.status)
  else if limit.requestsPerSecond ≤ 0 then (tokens, .reject limit.status)
  else
    let wait := (1 - tokens) / limit.requestsPerSecond
    if limit.maxDelay < wait then (tokens, .reject limit.status)
    else (tokens - 1, .delay wait)

/-- A check in the table of its client. -/
def checkBuckets (now : ℚ) (key : NativeRateLimitKey) :
    NativeRateLimitBuckets × NativeRateLimitDecision :=
  let buckets := limit.makeRoom buckets now key
  if limit.tableFull buckets key then (buckets, .reject limit.status)
  else
    let buckets := limit.ensureBucket buckets now key
    match buckets.entries.lookup key with
    -- the bucket is there; the source aborts otherwise
    | none => (buckets, .reject limit.status)
    | some bucket =>
      let (tokens, decision) := limit.decideTokens (limit.refill bucket now)
      ({ buckets with entries := buckets.entries.insert key ⟨tokens, now, now⟩ }, decision)

/-- One request. -/
def check (seed : UInt64) (state : NativeRateLimitState) (now : ℚ) (clientIp : Option IpAddr) :
    NativeRateLimitState × NativeRateLimitDecision :=
  if !limit.enabled then (state, .allow)
  else
    let key := NativeRateLimitKey.fromAddress clientIp
    if key = .indeterminate ∧ limit.rejectIndeterminate = true then (state, .reject limit.status)
    else
      let shard := nativeRateLimitShard seed key
      let (buckets, decision) := limit.checkBuckets (state.shards shard) now key
      (⟨Function.update state.shards shard buckets⟩, decision)

end NativeRateLimit

end Fluxheim.Server
