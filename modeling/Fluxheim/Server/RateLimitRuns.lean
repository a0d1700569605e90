import Fluxheim.Lib.Run
import Fluxheim.Lib.TokenBucket
import Fluxheim.Server.RateLimit

/-!
# What the rate limit guarantees over a run

Any number of requests of any clients, in the order of time.  A run is watched from the outside for
one client: when its requests were released.  No interval has too many releases, in every run in
which a client's bucket is full again by the time it is pruned.
-/

namespace Fluxheim.Server

open Run TokenBucket NativeRateLimit

/-- One request: when it arrives, and where from. -/
structure Arrival where
  time : ℚ
  client : Option IpAddr

/-- When a request that arrived at `now` is released, if it is. -/
def released (now : ℚ) : NativeRateLimitDecision → List ℚ
  | .allow => [now]
  | .delay wait => [now + wait]
  | .reject _ => []

/-- The run so far, seen from one client. -/
structure RateWatch where
  state : NativeRateLimitState := {}
  /-- When the last request arrived. -/
  clock : ℚ := 0
  /-- When the client's requests were or will be released. -/
  releases : List ℚ := []

/-- One more request. -/
def observeRate (limit : NativeRateLimit) (seed : UInt64) (identity : NativeRateLimitKey)
    (w : RateWatch) (arrival : Arrival) : RateWatch where
  state := (limit.check seed w.state arrival.time arrival.client).1
  clock := arrival.time
  releases :=
    if NativeRateLimitKey.fromAddress arrival.client = identity then
      w.releases ++
        released arrival.time (limit.check seed w.state arrival.time arrival.client).2
    else w.releases

/-- The bucket of a client. -/
def bucketOf (seed : UInt64) (identity : NativeRateLimitKey) (state : NativeRateLimitState) :
    Option NativeRateLimitBucket :=
  (state.shards (nativeRateLimitShard seed identity)).entries.lookup identity

/-! ### Pruning -/

/-- A bucket is kept, or it is old. -/
theorem lookup_pruneScan (now ttl : ℚ) (scans : ℕ) (buckets : NativeRateLimitBuckets)
    (identity : NativeRateLimitKey) :
    (pruneScan now ttl scans buckets).entries.lookup identity = buckets.entries.lookup identity ∨
      (pruneScan now ttl scans buckets).entries.lookup identity = none ∧
        ∃ bucket, buckets.entries.lookup identity = some bucket ∧
          ttl < saturatingDurationSince now bucket.lastSeen := by
  induction scans generalizing buckets with
  | zero => exact Or.inl rfl
  | succ scans ih =>
    unfold pruneScan
    cases hqueue : buckets.pruneQueue with
    | nil => exact Or.inl rfl
    | cons key queue =>
      cases hkey : buckets.entries.lookup key with
      | none =>
        simp only [hkey]
        exact ih { buckets with pruneQueue := queue }
      | some bucket =>
        simp only [hkey]
        by_cases hold : ttl < saturatingDurationSince now bucket.lastSeen
        · rw [if_pos hold]
          by_cases hself : identity = key
          · subst hself
            right
            refine ⟨?_, bucket, hkey, hold⟩
            rcases ih { buckets with
              entries := buckets.entries.erase identity, pruneQueue := queue } with h | h
            · exact h.trans (AList.lookup_erase _ _)
            · exact h.1
          · have hother : (buckets.entries.erase key).lookup identity =
                buckets.entries.lookup identity := AList.lookup_erase_ne hself
            have hrest := ih { buckets with
              entries := buckets.entries.erase key, pruneQueue := queue }
            rwa [hother] at hrest
        · rw [if_neg hold]
          exact ih { buckets with pruneQueue := queue ++ [key] }

namespace NativeRateLimit

variable {limit : NativeRateLimit} {buckets : NativeRateLimitBuckets} {now : ℚ}
  {key identity : NativeRateLimitKey}

/-- Only a check that finds the table full takes a bucket away, and only an old one. -/
theorem lookup_makeRoom (limit : NativeRateLimit) (buckets : NativeRateLimitBuckets) (now : ℚ)
    (key identity : NativeRateLimitKey) :
    (limit.makeRoom buckets now key).entries.lookup identity = buckets.entries.lookup identity ∨
      (limit.makeRoom buckets now key).entries.lookup identity = none ∧
        limit.tableFull buckets key ∧ shouldPrune buckets now = true ∧
        ∃ bucket, buckets.entries.lookup identity = some bucket ∧
          limit.entryTtl < saturatingDurationSince now bucket.lastSeen := by
  unfold makeRoom
  split_ifs with hfull
  · rcases lookup_pruneScan now limit.entryTtl
      (min NATIVE_RATE_LIMIT_PRUNE_SCAN_LIMIT buckets.pruneQueue.length) buckets identity with h | h
    · exact Or.inl h
    · exact Or.inr ⟨h.1, hfull.1, hfull.2, h.2⟩
  · exact Or.inl rfl

/-- A check leaves the buckets of other clients alone, but for pruning. -/
theorem lookup_checkBuckets_other (hne : identity ≠ key) :
    (limit.checkBuckets buckets now key).1.entries.lookup identity =
      (limit.makeRoom buckets now key).entries.lookup identity := by
  have hensure : ∀ buckets : NativeRateLimitBuckets,
      (limit.ensureBucket buckets now key).entries.lookup identity =
        buckets.entries.lookup identity := by
    intro buckets
    unfold ensureBucket
    split_ifs
    · rfl
    · exact AList.lookup_insert_ne hne
  unfold checkBuckets
  dsimp only
  split_ifs
  · rfl
  · cases hkey :
      (limit.ensureBucket (limit.makeRoom buckets now key) now key).entries.lookup key with
    | none => exact hensure _
    | some bucket => exact (AList.lookup_insert_ne hne).trans (hensure _)

/-- The tokens that a client's check finds: those of a full bucket, if it has none. -/
def tokensAt (limit : NativeRateLimit) (now : ℚ) : Option NativeRateLimitBucket → ℚ
  | none => limit.burst
  | some bucket => limit.refill bucket now

theorem refill_new : limit.refill ⟨limit.burst, now, now⟩ now = limit.burst := by
  simp [refill, saturatingDurationSince]

/-- A check decides on the tokens of its client; or the client has no bucket, and is refused one. -/
theorem checkBuckets_self (limit : NativeRateLimit) (buckets : NativeRateLimitBuckets) (now : ℚ)
    (key : NativeRateLimitKey) :
    (buckets.entries.lookup key = none ∧
        (limit.checkBuckets buckets now key).1.entries.lookup key = none ∧
        (limit.checkBuckets buckets now key).2 = .reject limit.status) ∨
      (limit.checkBuckets buckets now key).1.entries.lookup key =
          some ⟨(limit.decideTokens (limit.tokensAt now (buckets.entries.lookup key))).1,
            now, now⟩ ∧
        (limit.checkBuckets buckets now key).2 =
          (limit.decideTokens (limit.tokensAt now (buckets.entries.lookup key))).2 := by
  cases hlookup : buckets.entries.lookup key with
  | some bucket =>
    right
    have hmem : key ∈ buckets.entries := by
      rw [← AList.lookup_isSome, hlookup]
      rfl
    have hfull : ¬ limit.tableFull buckets key := fun h => h.1 hmem
    have hroom : limit.makeRoom buckets now key = buckets := if_neg fun h => hfull h.1
    have hensure : limit.ensureBucket buckets now key = buckets := if_pos hmem
    simp only [checkBuckets, hroom, if_neg hfull, hensure, hlookup]
    exact ⟨AList.lookup_insert _, rfl⟩
  | none =>
    have hroom : (limit.makeRoom buckets now key).entries.lookup key = none := by
      rcases limit.lookup_makeRoom buckets now key key with h | h
      · exact h.trans hlookup
      · exact h.1
    by_cases hfull : limit.tableFull (limit.makeRoom buckets now key) key
    · left
      simp only [checkBuckets, if_pos hfull]
      exact ⟨trivial, hroom, trivial⟩
    · right
      have hensure : limit.ensureBucket (limit.makeRoom buckets now key) now key = _ :=
        if_neg (AList.lookup_eq_none.1 hroom)
      simp only [checkBuckets, if_neg hfull, hensure, AList.lookup_insert, refill_new]
      exact ⟨rfl, rfl⟩

/-- **One decision**, on tokens that the level vouches for: the request is released no earlier and
no later than the level says. -/
theorem paced_decideTokens {tokens level : ℚ} {releases : List ℚ}
    (hbur : 1 ≤ limit.burst) (hrate : 0 < limit.requestsPerSecond) (htok : tokens ≤ limit.burst)
    (hpaced : Paced limit.burst limit.requestsPerSecond level releases)
    (hlev : level ≤ limit.requestsPerSecond * now + limit.burst - tokens) :
    Paced limit.burst limit.requestsPerSecond
      (limit.requestsPerSecond * now + limit.burst - (limit.decideTokens tokens).1)
      (releases ++ released now (limit.decideTokens tokens).2) := by
  have hrej : Paced limit.burst limit.requestsPerSecond
      (limit.requestsPerSecond * now + limit.burst - tokens) (releases ++ []) := by
    rw [List.append_nil]
    exact hpaced.mono hlev
  unfold decideTokens
  dsimp only
  split_ifs with hallow hmode hzero hwait
  · refine hpaced.release hrate.le ?_ ?_ ?_ <;> linarith
  · exact hrej
  · exact hrej
  · exact hrej
  · -- released when the missing token has been refilled
    have hr : limit.requestsPerSecond * (now + (1 - tokens) / limit.requestsPerSecond) =
        limit.requestsPerSecond * now + 1 - tokens := by
      rw [mul_add, mul_div_cancel₀ _ hrate.ne']
      ring
    refine hpaced.release hrate.le ?_ ?_ ?_ <;> linarith

theorem decideTokens_wait_le {toks wait : ℚ} (h : (limit.decideTokens toks).2 = .delay wait) :
    wait ≤ limit.maxDelay := by
  unfold decideTokens at h
  dsimp only at h
  split_ifs at h with hallow hmode hzero hwait
  cases h
  exact not_lt.1 hwait

end NativeRateLimit

section Invariant

variable (limit : NativeRateLimit) (seed : UInt64) (identity : NativeRateLimitKey)

/-- The requests come in the order of time. -/
def InOrder (w : RateWatch) (arrival : Arrival) : Prop := w.clock ≤ arrival.time

/-- The request finds the client's table full, has it pruned, and the client's bucket is an old
one. -/
structure Prunes (w : RateWatch) (arrival : Arrival) (bucket : NativeRateLimitBucket) : Prop where
  shard : nativeRateLimitShard seed (.fromAddress arrival.client) =
    nativeRateLimitShard seed identity
  full : limit.tableFull (w.state.shards (nativeRateLimitShard seed identity))
    (.fromAddress arrival.client)
  due : shouldPrune (w.state.shards (nativeRateLimitShard seed identity)) arrival.time = true
  old : limit.entryTtl < saturatingDurationSince arrival.time bucket.lastSeen

/-- If the client's bucket can be pruned, it is full again by then. -/
def RefilledWhenPruned (w : RateWatch) (arrival : Arrival) : Prop :=
  ∀ bucket, bucketOf seed identity w.state = some bucket →
    Prunes limit seed identity w arrival bucket →
    limit.burst ≤ bucket.tokens + (arrival.time - bucket.updatedAt) * limit.requestsPerSecond

/-- The level of the client's bucket; without one it counts as full. -/
def bucketLevel (clock : ℚ) : Option NativeRateLimitBucket → ℚ
  | none => limit.requestsPerSecond * clock
  | some bucket => limit.requestsPerSecond * bucket.updatedAt + limit.burst - bucket.tokens

/-- The releases so far are paced by the client's bucket, which is not ahead of the clock. -/
structure Accounted (clock : ℚ) (bucket : Option NativeRateLimitBucket) (releases : List ℚ) :
    Prop where
  paced : Paced limit.burst limit.requestsPerSecond (bucketLevel limit clock bucket) releases
  past : ∀ b, bucket = some b → b.updatedAt ≤ clock

variable {limit seed identity} {clock now : ℚ}
  {bucket : Option NativeRateLimitBucket} {releases : List ℚ}

/-- The level that a later time vouches for. -/
theorem level_le_tokensAt (hclock : clock ≤ now) (hrate : 0 < limit.requestsPerSecond)
    (hpast : ∀ b, bucket = some b → b.updatedAt ≤ clock) :
    bucketLevel limit clock bucket ≤
      limit.requestsPerSecond * now + limit.burst - limit.tokensAt now bucket := by
  cases bucket with
  | none =>
    have := mul_le_mul_of_nonneg_left hclock hrate.le
    simp only [bucketLevel, tokensAt]
    linarith
  | some bucket =>
    have hupd : bucket.updatedAt ≤ now := (hpast bucket rfl).trans hclock
    have href : limit.refill bucket now ≤
        bucket.tokens + (now - bucket.updatedAt) * limit.requestsPerSecond := by
      unfold refill saturatingDurationSince
      rw [max_eq_right (sub_nonneg.2 hupd)]
      exact min_le_right _ _
    simp only [bucketLevel, tokensAt]
    linarith

theorem tokensAt_le_burst (now : ℚ) (bucket : Option NativeRateLimitBucket) :
    limit.tokensAt now bucket ≤ limit.burst := by
  cases bucket with
  | none => exact le_rfl
  | some bucket => exact min_le_left _ _

theorem Accounted.later (h : Accounted limit clock bucket releases)
    (hrate : 0 < limit.requestsPerSecond) (hclock : clock ≤ now) :
    Accounted limit now bucket releases := by
  refine ⟨h.paced.mono ?_, fun b hb => (h.past b hb).trans hclock⟩
  cases bucket with
  | none => exact mul_le_mul_of_nonneg_left hclock hrate.le
  | some bucket => exact le_rfl

/-- A bucket that is full again can be forgotten. -/
theorem Accounted.prune {b : NativeRateLimitBucket} (h : Accounted limit clock (some b) releases)
    (hfull : limit.burst ≤ b.tokens + (now - b.updatedAt) * limit.requestsPerSecond) :
    Accounted limit now none releases := by
  refine ⟨h.paced.mono ?_, nofun⟩
  simp only [bucketLevel]
  linarith

theorem Accounted.decide (h : Accounted limit clock bucket releases)
    (hbur : 1 ≤ limit.burst) (hrate : 0 < limit.requestsPerSecond) (hclock : clock ≤ now) :
    Accounted limit now (some ⟨(limit.decideTokens (limit.tokensAt now bucket)).1, now, now⟩)
      (releases ++ released now (limit.decideTokens (limit.tokensAt now bucket)).2) := by
  refine ⟨paced_decideTokens hbur hrate (tokensAt_le_burst now bucket) h.paced
    (level_le_tokensAt hclock hrate h.past), fun b hb => ?_⟩
  cases hb
  exact le_rfl

end Invariant

/-! ### Runs -/

section Runs

variable {limit : NativeRateLimit} {seed : UInt64} {identity : NativeRateLimitKey} {w : RateWatch}
  {arrival : Arrival}

/-- A request that gets to the tables. -/
theorem check_eq (hen : limit.enabled = true) {client : Option IpAddr}
    (hclient : ¬ (NativeRateLimitKey.fromAddress client = .indeterminate ∧
      limit.rejectIndeterminate = true)) (state : NativeRateLimitState) (now : ℚ) :
    limit.check seed state now client =
      (⟨Function.update state.shards (nativeRateLimitShard seed (.fromAddress client))
        (limit.checkBuckets (state.shards (nativeRateLimitShard seed (.fromAddress client))) now
          (.fromAddress client)).1⟩,
        (limit.checkBuckets (state.shards (nativeRateLimitShard seed (.fromAddress client))) now
          (.fromAddress client)).2) := by
  simp [check, hen, Bool.false_eq_true, if_neg hclient]

/-- **What a check does to a client's bucket.**  Nothing; or it prunes it; or it is the client's own
and decides on its tokens. -/
theorem bucketOf_check_cases (hen : limit.enabled = true) (w : RateWatch) (arrival : Arrival) :
    (bucketOf seed identity (limit.check seed w.state arrival.time arrival.client).1 =
          bucketOf seed identity w.state ∧
        (NativeRateLimitKey.fromAddress arrival.client = identity →
          (limit.check seed w.state arrival.time arrival.client).2 = .reject limit.status)) ∨
      (bucketOf seed identity (limit.check seed w.state arrival.time arrival.client).1 = none ∧
        NativeRateLimitKey.fromAddress arrival.client ≠ identity ∧
        ∃ bucket, bucketOf seed identity w.state = some bucket ∧
          Prunes limit seed identity w arrival bucket) ∨
      (bucketOf seed identity (limit.check seed w.state arrival.time arrival.client).1 =
          some ⟨(limit.decideTokens
            (limit.tokensAt arrival.time (bucketOf seed identity w.state))).1,
            arrival.time, arrival.time⟩ ∧
        NativeRateLimitKey.fromAddress arrival.client = identity ∧
        (limit.check seed w.state arrival.time arrival.client).2 =
          (limit.decideTokens (limit.tokensAt arrival.time
            (bucketOf seed identity w.state))).2) := by
  by_cases hclient : NativeRateLimitKey.fromAddress arrival.client = .indeterminate ∧
      limit.rejectIndeterminate = true
  · -- turned away before the tables
    have hche : limit.check seed w.state arrival.time arrival.client =
        (w.state, .reject limit.status) := by
      simp [check, hen, Bool.false_eq_true, if_pos hclient]
    rw [hche]
    exact Or.inl ⟨rfl, fun _ => rfl⟩
  · rw [check_eq hen hclient]
    by_cases hself : NativeRateLimitKey.fromAddress arrival.client = identity
    · subst hself
      simp only [bucketOf, Function.update_self]
      rcases limit.checkBuckets_self (w.state.shards (nativeRateLimitShard seed
        (.fromAddress arrival.client))) arrival.time (.fromAddress arrival.client) with
        ⟨hnone, hnone', hdecision⟩ | ⟨hbucket, hdecision⟩
      · exact Or.inl ⟨hnone'.trans hnone.symm, fun _ => hdecision⟩
      · exact Or.inr (Or.inr ⟨hbucket, trivial, hdecision⟩)
    · by_cases hsha : nativeRateLimitShard seed (.fromAddress arrival.client) =
          nativeRateLimitShard seed identity
      · -- another client of the same table
        simp only [bucketOf, hsha, Function.update_self]
        rw [lookup_checkBuckets_other (Ne.symm hself)]
        rcases limit.lookup_makeRoom (w.state.shards (nativeRateLimitShard seed identity))
          arrival.time (.fromAddress arrival.client) identity with
          hsame | ⟨hnone, hfull, hdue, bucket, hbucket, hold⟩
        · exact Or.inl ⟨hsame, fun heq => absurd heq hself⟩
        · exact Or.inr (Or.inl ⟨hnone, hself, bucket, hbucket, hsha, hfull, hdue, hold⟩)
      · simp only [bucketOf, Function.update_of_ne (Ne.symm hsha)]
        exact Or.inl ⟨trivial, fun heq => absurd heq hself⟩

/-- **One request** keeps the account. -/
theorem accounted_observeRate (hen : limit.enabled = true) (hbur : 1 ≤ limit.burst)
    (hrate : 0 < limit.requestsPerSecond)
    (h : Accounted limit w.clock (bucketOf seed identity w.state) w.releases)
    (hord : InOrder w arrival) (hprune : RefilledWhenPruned limit seed identity w arrival) :
    Accounted limit arrival.time
      (bucketOf seed identity (observeRate limit seed identity w arrival).state)
      (observeRate limit seed identity w arrival).releases := by
  unfold observeRate
  rcases bucketOf_check_cases hen w arrival with
    ⟨hsame, hrej⟩ | ⟨hnone, hother, bucket, hbucket, hprun⟩ | ⟨hsome, hself, hdecision⟩
  · rw [hsame]
    have hrel : (if NativeRateLimitKey.fromAddress arrival.client = identity then
        w.releases ++ released arrival.time
          (limit.check seed w.state arrival.time arrival.client).2 else w.releases) =
        w.releases := by
      split_ifs with hself
      · rw [hrej hself, released, List.append_nil]
      · rfl
    rw [hrel]
    exact h.later hrate hord
  · rw [hnone, if_neg hother]
    rw [hbucket] at h
    exact h.prune (hprune bucket hbucket hprun)
  · rw [hsome, if_pos hself, hdecision]
    exact h.decide hbur hrate hord

/-- What an enabled configuration that passes its check makes of the limiter. -/
theorem fromConfig_pos {config : RateLimitConfig} {scope : String}
    (hen : config.enabled = true) (hval : config.validate scope = .ok ()) :
    0 < (NativeRateLimit.fromConfig config).requestsPerSecond ∧
      1 ≤ (NativeRateLimit.fromConfig config).burst := by
  simp only [RateLimitConfig.validate, hen, Bool.not_true, Bool.false_eq_true, if_false] at hval
  split_ifs at hval with hrate
  simp only [fromConfig]
  constructor
  · exact Nat.cast_pos.2 (pos_of_ne_zero fun h => hrate (Or.inl h))
  · rw [Nat.one_le_cast]
    split_ifs with hbur
    · exact le_max_right _ _
    · exact pos_of_ne_zero hbur

/-- A check never asks a client to wait for longer than it may. -/
theorem check_wait_le {state : NativeRateLimitState} {now wait : ℚ} {client : Option IpAddr}
    (h : (limit.check seed state now client).2 = .delay wait) : wait ≤ limit.maxDelay := by
  by_cases hen : limit.enabled = true
  · by_cases hclient : NativeRateLimitKey.fromAddress client = .indeterminate ∧
        limit.rejectIndeterminate = true
    · simp only [check, hen, if_pos hclient] at h
      cases h
    · rw [check_eq hen hclient] at h
      rcases limit.checkBuckets_self (state.shards (nativeRateLimitShard seed
        (.fromAddress client))) now (.fromAddress client) with ⟨-, -, hdecision⟩ | ⟨-, hdecision⟩
      · rw [hdecision] at h
        cases h
      · rw [hdecision] at h
        exact decideTokens_wait_le h
  · simp only [check, Bool.eq_false_of_not_eq_true hen] at h
    cases h

/-- **The rate limit holds.**  In a run of an enabled limiter, in which no request has a bucket of
the client pruned that is not full again, no interval has more than `burst + rate * T` releases; and
no request of any client is made to wait for longer than the maximum. -/
theorem rate_bounded (config : RateLimitConfig) (scope : String) (seed : UInt64)
    (identity : NativeRateLimitKey) (arrivals : List Arrival)
    (hvalid : config.validate scope = .ok ()) (henabled : config.enabled = true)
    (horder : Along (observeRate (.fromConfig config) seed identity) InOrder {} arrivals)
    (hpruned : Along (observeRate (.fromConfig config) seed identity)
      (RefilledWhenPruned (.fromConfig config) seed identity) {} arrivals) :
    (∀ a T : ℚ, 0 ≤ T →
      (within a (a + T)
          (arrivals.foldl (observeRate (.fromConfig config) seed identity) {}).releases : ℚ) ≤
        (NativeRateLimit.fromConfig config).burst +
          (NativeRateLimit.fromConfig config).requestsPerSecond * T) ∧
      ∀ before arrival after, arrivals = before ++ arrival :: after →
        ∀ wait, ((NativeRateLimit.fromConfig config).check seed
            (before.foldl (observeRate (.fromConfig config) seed identity) {}).state
            arrival.time arrival.client).2 = .delay wait →
          wait ≤ (NativeRateLimit.fromConfig config).maxDelay := by
  obtain ⟨hrate, hbur⟩ := fromConfig_pos henabled hvalid
  refine ⟨fun a T hT => ?_, fun before arrival after _ wait hwait => check_wait_le hwait⟩
  have hacc := (horder.and hpruned).invariant
    (P := fun w => Accounted (.fromConfig config) w.clock (bucketOf seed identity w.state)
      w.releases)
    (fun w arrival hw hgood =>
      accounted_observeRate henabled hbur hrate hw hgood.1 hgood.2)
    ⟨paced_nil (by linarith) hrate.le _, nofun⟩
  have hbound := hacc.paced.within_le a (a + T) (by linarith)
  rwa [add_sub_cancel_left] at hbound

/-- How far below zero a client's tokens can be. -/
def NativeRateLimit.debt (limit : NativeRateLimit) : ℚ :=
  match limit.mode with
  | .nodelay => 0
  | .delay => limit.requestsPerSecond * limit.maxDelay

theorem NativeRateLimit.debt_nonneg (hrate : 0 < limit.requestsPerSecond)
    (hdel : 0 ≤ limit.maxDelay) : 0 ≤ limit.debt := by
  unfold debt
  cases limit.mode with
  | nodelay => exact le_rfl
  | delay => exact mul_nonneg hrate.le hdel

theorem NativeRateLimit.neg_debt_le_decideTokens {toks : ℚ} (hrate : 0 < limit.requestsPerSecond)
    (hdel : 0 ≤ limit.maxDelay) (htok : -limit.debt ≤ toks) :
    -limit.debt ≤ (limit.decideTokens toks).1 := by
  have hdebt := debt_nonneg hrate hdel
  unfold decideTokens
  dsimp only
  split_ifs with hallow hmode hzero hwait
  · linarith
  · exact htok
  · exact htok
  · exact htok
  · -- what is borrowed is refilled within the wait
    have hmode' : limit.mode = .delay := not_not.1 (not_or.1 hmode).1
    have hbor := (div_le_iff₀ hrate).1 (not_lt.1 hwait)
    simp only [debt, hmode']
    linarith

/-- The client's bucket is not in debt by more than that. -/
def Solvent (limit : NativeRateLimit) (bucket : Option NativeRateLimitBucket) : Prop :=
  ∀ b, bucket = some b → b.lastSeen = b.updatedAt ∧ -limit.debt ≤ b.tokens

theorem solvent_observeRate (hen : limit.enabled = true) (hbur : 0 ≤ limit.burst)
    (hrate : 0 < limit.requestsPerSecond) (hdel : 0 ≤ limit.maxDelay)
    (h : Solvent limit (bucketOf seed identity w.state)) :
    Solvent limit (bucketOf seed identity (observeRate limit seed identity w arrival).state) := by
  unfold observeRate
  have hdebt := debt_nonneg hrate hdel
  rcases bucketOf_check_cases hen w arrival with
    ⟨hsame, -⟩ | ⟨hnone, -⟩ | ⟨hsome, -⟩
  · rwa [hsame]
  · rw [hnone]
    nofun
  · rw [hsome]
    intro b hb
    cases hb
    refine ⟨rfl, limit.neg_debt_le_decideTokens hrate hdel ?_⟩
    cases hbucket : bucketOf seed identity w.state with
    | none =>
      simp only [tokensAt]
      linarith
    | some bucket =>
      have htok := (h bucket hbucket).2
      have helapsed : 0 ≤ saturatingDurationSince arrival.time bucket.updatedAt *
          limit.requestsPerSecond := mul_nonneg (le_max_left _ _) hrate.le
      refine le_min ?_ ?_ <;> linarith

/-- **Configurations that are safe from pruning**: an old bucket has had the time to fill. -/
theorem refilledWhenPruned_of_ttl {arrivals : List Arrival} (hen : limit.enabled = true)
    (hbur : 0 ≤ limit.burst) (hrate : 0 < limit.requestsPerSecond) (hdel : 0 ≤ limit.maxDelay)
    (hcov : limit.burst + limit.debt ≤ limit.entryTtl * limit.requestsPerSecond)
    (hord : Along (observeRate limit seed identity) InOrder {} arrivals) :
    Along (observeRate limit seed identity) (RefilledWhenPruned limit seed identity) {}
      arrivals := by
  refine hord.of_invariant (P := fun w => Solvent limit (bucketOf seed identity w.state))
    (fun w arrival hw _ => solvent_observeRate hen hbur hrate hdel hw) ?_ nofun
  intro w arrival hw _ bucket hbucket hprune
  obtain ⟨hseen, htok⟩ := hw bucket hbucket
  have hold := hprune.old
  rw [hseen] at hold
  rcases lt_max_iff.1 hold with hneg | hlt
  · have := debt_nonneg hrate hdel
    have := mul_neg_of_neg_of_pos hneg hrate
    linarith
  · have := mul_le_mul_of_nonneg_right hlt.le hrate.le
    linarith

end Runs

instance (w : RateWatch) (arrival : Arrival) : Decidable (InOrder w arrival) :=
  inferInstanceAs (Decidable (_ ≤ _))

/-- Two addresses with the same last four bits in every octet have one table. -/
def firstAddress : IpAddr := .v4 ⟨#[192, 0, 2, 1], rfl⟩
/-- Another client. -/
def secondAddress : IpAddr := .v4 ⟨#[192, 0, 2, 17], rfl⟩

/-- The second client has the first one's bucket pruned, when it is full again. -/
theorem rate_bounded_refilled :
    let config : RateLimitConfig :=
      { enabled := true, requestsPerSecond := 1, burst := 2, tableMaxEntries := 1,
        entryTtlSecs := 2 }
    let w := [⟨0, some firstAddress⟩, ⟨0, some firstAddress⟩, ⟨3, some secondAddress⟩,
      ⟨6, some firstAddress⟩].foldl (observeRate (.fromConfig config) 0 (.ip firstAddress)) {}
    w.releases = [0, 0, 6] ∧ (within 0 (0 + 6) w.releases : ℚ) ≤ 2 + 1 * 6 := by
  intro config w
  have hord : Along (observeRate (.fromConfig config) 0 (.ip firstAddress)) InOrder {}
      [⟨0, some firstAddress⟩, ⟨0, some firstAddress⟩, ⟨3, some secondAddress⟩,
        ⟨6, some firstAddress⟩] := by
    decide +kernel
  refine ⟨by decide +kernel, ?_⟩
  exact (rate_bounded config "vhosts.rate_limit" 0 (.ip firstAddress) _ (by decide +kernel) rfl
    hord (refilledWhenPruned_of_ttl rfl (by decide +kernel) (by decide +kernel)
      (by decide +kernel) (by decide +kernel) hord)).1 0 6 (by decide +kernel)

/-- **A bucket pruned too early.**  With one token a second, a burst of five and a time to live of
one second, the first client sends five requests at once.  A second client's request has that bucket
pruned, and the first client starts with a full one.  Ten requests are released within three
seconds, for which the limit is eight. -/
theorem rate_exceeded_after_pruning :
    let config : RateLimitConfig :=
      { enabled := true, requestsPerSecond := 1, burst := 5, tableMaxEntries := 1,
        entryTtlSecs := 1 }
    let arrivals : List Arrival := List.replicate 5 ⟨0, some firstAddress⟩ ++
      [⟨3 / 2, some secondAddress⟩] ++ List.replicate 5 ⟨3, some firstAddress⟩
    let w := arrivals.foldl (observeRate (.fromConfig config) 0 (.ip firstAddress)) {}
    config.validate "vhosts.rate_limit" = .ok () ∧
      Along (observeRate (.fromConfig config) 0 (.ip firstAddress)) InOrder {} arrivals ∧
      w.releases = [0, 0, 0, 0, 0, 3, 3, 3, 3, 3] ∧
      ¬ (within 0 (0 + 3) w.releases : ℚ) ≤
        (NativeRateLimit.fromConfig config).burst +
          (NativeRateLimit.fromConfig config).requestsPerSecond * 3 := by
  decide +kernel

end Fluxheim.Server
