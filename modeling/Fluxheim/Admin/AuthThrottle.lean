import Mathlib.Algebra.Group.Nat.Defs
import Mathlib.Data.List.MinMax
import Mathlib.Data.Prod.Lex
import Fluxheim.Lib.Table

/-!
# The admin authentication throttle

The failure accounting of the admin API and the part of the request router that uses it, from the
throttle's check to the verdict on the credentials.  Times are seconds since the epoch, kept by the
source as `u64`.  Each operation reads the clock itself, so that a request has two times.
-/

namespace Fluxheim.Admin

/-- `u64::MAX`. -/
def u64Max : ℕ := 2 ^ 64 - 1

/-- `u32::MAX`. -/
def u32Max : ℕ := 2 ^ 32 - 1

/-- A sum that stops at the largest number. -/
def saturatingAddU64 (x y : ℕ) : ℕ := min (x + y) u64Max

/-- A product that stops at the largest number. -/
def saturatingMulU64 (x y : ℕ) : ℕ := min (x * y) u64Max

/-- A sum of 32 bits. -/
def saturatingAddU32 (x y : ℕ) : ℕ := min (x + y) u32Max

/-- The limits. -/
structure AdminAuthThrottleConfig where
  enabled : Bool := true
  windowSecs : ℕ := 60
  perSourceFailures : ℕ := 10
  globalFailures : ℕ := 100
  baseLockoutSecs : ℕ := 30
  maxLockoutSecs : ℕ := 900
  maxSources : ℕ := 4096

/-- The field a configuration is refused for. -/
structure InvalidAdminAuthThrottle where
  field : String
  deriving DecidableEq

namespace AdminAuthThrottleConfig

/-- The check that a loaded configuration passes. -/
def validate (config : AdminAuthThrottleConfig) : Except InvalidAdminAuthThrottle Unit :=
  if !config.enabled then .ok ()
  else if config.windowSecs = 0 then .error ⟨"admin.auth_throttle.window_secs"⟩
  else if config.perSourceFailures = 0 then
    .error ⟨"admin.auth_throttle.per_source_failures"⟩
  else if config.globalFailures = 0 then .error ⟨"admin.auth_throttle.global_failures"⟩
  else if config.baseLockoutSecs = 0 then .error ⟨"admin.auth_throttle.base_lockout_secs"⟩
  else if config.maxLockoutSecs < config.baseLockoutSecs then
    .error ⟨"admin.auth_throttle.max_lockout_secs"⟩
  else if config.maxSources = 0 then .error ⟨"admin.auth_throttle.max_sources"⟩
  else .ok ()

/-- What an enabled configuration that passes `validate` satisfies. -/
structure Valid (config : AdminAuthThrottleConfig) : Prop where
  window_pos : 0 < config.windowSecs
  perSource_pos : 0 < config.perSourceFailures
  global_pos : 0 < config.globalFailures
  base_pos : 0 < config.baseLockoutSecs
  base_le_max : config.baseLockoutSecs ≤ config.maxLockoutSecs
  sources_pos : 0 < config.maxSources

theorem validate_eq_ok_iff {config : AdminAuthThrottleConfig} (hen : config.enabled = true) :
    config.validate = .ok () ↔ config.Valid := by
  constructor
  · intro h
    simp only [validate, hen, Bool.not_true, Bool.false_eq_true, if_false] at h
    split_ifs at h
    constructor <;> omega
  · rintro ⟨h₁, h₂, h₃, h₄, h₅, h₆⟩
    simp only [validate, hen]
    rw [if_neg (by decide), if_neg h₁.ne', if_neg h₂.ne', if_neg h₃.ne', if_neg h₄.ne',
      if_neg h₅.not_gt, if_neg h₆.ne']

/-- The defaults pass their own check. -/
example : ({} : AdminAuthThrottleConfig).validate = .ok () := by decide

end AdminAuthThrottleConfig

/-- The length of a source's or the global `lockouts`-th lockout. -/
def lockoutSecs (config : AdminAuthThrottleConfig) (lockouts : ℕ) : ℕ :=
  -- the exponent is at most 20, so that `1_u64.checked_shl` always has a value
  min (saturatingMulU64 config.baseLockoutSecs (2 ^ min (lockouts - 1) 20)) config.maxLockoutSecs

/-! ### State -/

variable {A : Type} [DecidableEq A]

/-- Where a request comes from; `A` are the peer addresses. -/
inductive AuthSource (A : Type) where
  | ip (address : A)
  | unknown
  deriving DecidableEq

/-- The source of a request. -/
def AuthSource.fromAddress : Option A → AuthSource A
  | some address => .ip address
  | none => .unknown

/-- The record of a source. -/
structure AdminAuthSourceState where
  failures : List ℕ := []
  lockedUntil : ℕ := 0
  lockouts : ℕ := 0
  lastSeen : ℕ := 0

/-- The failures and lockouts, of all sources together and of each. -/
structure AdminAuthThrottleState (A : Type) where
  globalFailures : List ℕ := []
  globalLockedUntil : ℕ := 0
  globalLockouts : ℕ := 0
  sources : AList (fun _ : AuthSource A => AdminAuthSourceState) := ∅

/-- What is locked out. -/
inductive AdminAuthThrottleScope where
  | source
  | global
  deriving DecidableEq

/-- The failures of the window. -/
def pruneFailures (failures : List ℕ) (cutoff : ℕ) : List ℕ :=
  failures.dropWhile fun seenAt => decide (seenAt < cutoff)

variable (config : AdminAuthThrottleConfig) (now : ℕ)

/-- A source's record when the table is pruned: gone, unless it is locked or has failures left. -/
def AdminAuthSourceState.prune (record : AdminAuthSourceState) : Option AdminAuthSourceState :=
  let failures := pruneFailures record.failures (now - config.windowSecs)
  if now < record.lockedUntil ∨ failures ≠ [] then some { record with failures } else none

namespace AdminAuthThrottleState

/-- The failures that are too old go, and the records that say nothing. -/
def prune (config : AdminAuthThrottleConfig) (now : ℕ) (state : AdminAuthThrottleState A) :
    AdminAuthThrottleState A :=
  { state with
    globalFailures := pruneFailures state.globalFailures (now - config.windowSecs)
    sources := state.sources.retain (AdminAuthSourceState.prune config now) }

/-- A failure, counted for all. -/
def pushGlobalFailure (state : AdminAuthThrottleState A) : AdminAuthThrottleState A :=
  { state with globalFailures := state.globalFailures ++ [now] }

variable (order : AuthSource A → ℕ)

/-- The source with the least `last_seen`; `order` is the iteration order of the hash table, which
decides between equals. -/
def stalest (entries : List (Σ _ : AuthSource A, AdminAuthSourceState)) : Option (AuthSource A) :=
  (entries.argmin fun e => toLex (e.2.lastSeen, order e.1)).map Sigma.fst

variable (state : AdminAuthThrottleState A)

/-- The source that has to make room for `source`, if one has to. -/
def staleKey : Option (AuthSource A) :=
  (stalest order (state.sources.entries.filter fun e => e.2.lockedUntil = 0)).or
    (stalest order state.sources.entries)

/-- Room for a source, where another can be forgotten. -/
def ensureSourceCapacity (source : AuthSource A) : AdminAuthThrottleState A × Bool :=
  if source ∈ state.sources ∨ state.sources.entries.length < config.maxSources then (state, true)
  else
    match staleKey order state with
    | some stale => ({ state with sources := state.sources.erase stale }, true)
    | none => (state, false)

/-- The global half of a recorded failure: whether it starts a global lockout. -/
def globalAccounting : AdminAuthThrottleState A × Bool :=
  if config.globalFailures ≤ state.globalFailures.length then
    let lockouts := saturatingAddU32 state.globalLockouts 1
    ({ state with
        globalLockouts := lockouts
        globalLockedUntil := saturatingAddU64 now (lockoutSecs config lockouts)
        globalFailures := [] }, true)
  else (state, false)

end AdminAuthThrottleState

/-- The source's half of a recorded failure: whether it starts a lockout of the source. -/
def AdminAuthSourceState.charge (record : AdminAuthSourceState) : AdminAuthSourceState × Bool :=
  let record := { record with lastSeen := now, failures := record.failures ++ [now] }
  if config.perSourceFailures ≤ record.failures.length then
    let lockouts := saturatingAddU32 record.lockouts 1
    ({ record with
        lockouts
        lockedUntil := saturatingAddU64 now (lockoutSecs config lockouts)
        failures := [] }, true)
  else (record, false)

open AdminAuthThrottleState

/-- The check before the credentials are looked at. -/
def preAuthCheck (source : Option A) (now : ℕ) (state : AdminAuthThrottleState A) :
    AdminAuthThrottleState A × Option AdminAuthThrottleScope :=
  if !config.enabled then (state, none)
  else
    let state := state.prune config now
    match AuthSource.fromAddress source with
    | .unknown => (state, none)
    | source =>
      (state, (state.sources.lookup source).bind fun record =>
        if now < record.lockedUntil then some .source else none)

/-- A failure that is counted, in the state that has it among its global failures. -/
def countFailure (order : AuthSource A → ℕ)
    (source : AuthSource A) (now : ℕ) (state : AdminAuthThrottleState A) :
    AdminAuthThrottleState A × Option AdminAuthThrottleScope :=
  match source with
  | .unknown =>
    let (state, locked) := globalAccounting config now state
    (state, if locked then some .global else none)
  | source =>
    match ensureSourceCapacity config order state source with
    | (state, false) =>
      let (state, locked) := globalAccounting config now state
      (state, if locked then some .global else none)
    | (state, true) =>
      let (record, sourceLocked) := ((state.sources.lookup source).getD {}).charge config now
      let state := { state with sources := state.sources.insert source record }
      let (state, locked) := globalAccounting config now state
      (state, if locked then some .global else if sourceLocked then some .source else none)

/-- A failure. -/
def recordFailure (order : AuthSource A → ℕ)
    (source : Option A) (now : ℕ) (state : AdminAuthThrottleState A) :
    AdminAuthThrottleState A × Option AdminAuthThrottleScope :=
  if !config.enabled then (state, none)
  else
    let state := state.prune config now
    -- a failure during a global lockout returns here, before it is counted anywhere
    if now < state.globalLockedUntil then (state, some .global)
    else countFailure config order (.fromAddress source) now (state.pushGlobalFailure now)

/-- A success: the source is forgotten. -/
def recordSuccess (source : Option A)
    (state : AdminAuthThrottleState A) : AdminAuthThrottleState A :=
  if !config.enabled then state
  else
    match AuthSource.fromAddress source with
    | .unknown => state
    | source => { state with sources := state.sources.erase source }

/-- The verdict on the certificate. -/
inductive AdminClientCertificateDecision where
  | allowed
  | required
  | denied

/-- The verdict on the token. -/
inductive AdminAuthorization where
  | control
  | observer
  | forbiddenObserver
  | invalid
  deriving DecidableEq

/-- The verdict on a request's token, from its comparison with the two configured tokens and from
whether it asks for the one route that is open to observers. -/
def authorizeAdminRoute (control observer observerRoute : Bool) : AdminAuthorization :=
  match control, observer, observerRoute with
  | true, _, _ => .control
  | false, true, true => .observer
  | false, true, false => .forbiddenObserver
  | _, _, _ => .invalid

/-- A request that needs authentication: its peer, the times at which the throttle's check and the
recording of a failure read the clock, how its certificate and token compare with what is
configured, and the iteration order that the source table has at the time. -/
structure AdminRequest (A : Type) where
  source : Option A
  arrival : ℕ
  recorded : ℕ
  certificate : AdminClientCertificateDecision := .allowed
  control : Bool := false
  observer : Bool := false
  observerRoute : Bool := false
  order : AuthSource A → ℕ := fun _ => 0

/-- What the credentials of a request fail. -/
inductive AuthFailure where
  | certificateRequired
  | certificateDenied
  | token
  deriving DecidableEq

/-- What becomes of a request. -/
inductive AuthOutcome where
  /-- Rejected by the throttle's check, with the credentials not looked at. -/
  | throttled (scope : AdminAuthThrottleScope)
  /-- Rejected for its credentials; a scope means that the throttle answers for them. -/
  | failed (failure : AuthFailure) (scope : Option AdminAuthThrottleScope)
  | forbidden
  | authorized (authorization : AdminAuthorization)
  deriving DecidableEq

/-- What the evaluation of a request's credentials says, before the throttle hears of it. -/
def AdminRequest.verdict (request : AdminRequest A) : AuthFailure ⊕ AdminAuthorization :=
  match request.certificate with
  | .required => .inl .certificateRequired
  | .denied => .inl .certificateDenied
  | .allowed =>
    match authorizeAdminRoute request.control request.observer request.observerRoute with
    | .invalid => .inl .token
    | authorization => .inr authorization

/-- The authentication section of `handle_with_source`. -/
def handleWithSource (state : AdminAuthThrottleState A)
    (request : AdminRequest A) : AdminAuthThrottleState A × AuthOutcome :=
  match preAuthCheck config request.source request.arrival state with
  | (state, some scope) => (state, .throttled scope)
  | (state, none) =>
    match request.verdict with
    | .inl failure =>
      let (state, scope) := recordFailure config request.order request.source request.recorded state
      (state, .failed failure scope)
    | .inr .forbiddenObserver => (state, .forbidden)
    | .inr .control => (recordSuccess config request.source state, .authorized .control)
    | .inr authorization => (state, .authorized authorization)

end Fluxheim.Admin
