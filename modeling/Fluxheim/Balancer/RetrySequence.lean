import Fluxheim.Balancer.RetryBudget
import Fluxheim.Balancer.SelectionSafety

/-!
# The retries of one request

The model of `retry.rs`: how many retries a request may make, and how one of them is reserved and
committed.  A reservation takes a place of the pool's budget; `commit` takes one of the request's
own retries and keeps the place, and a reservation that is dropped gives the place back.
-/

namespace Fluxheim.Balancer

open Ascii

/-- A range of statuses, both ends included. -/
structure ExpectedStatusRange where
  start : ℕ
  stop : ℕ

/-- `LoadBalancerRetryRuntimeStats`, as far as it decides on retries. -/
structure LoadBalancerRetryRuntimeStats where
  enabled : Bool
  maxRetries : ℕ
  methods : List Bytes
  statuses : List ℕ
  statusRanges : List ExpectedStatusRange

/-- The methods that may be repeated. -/
def safeMethod (method : Bytes) : Bool :=
  [ascii "GET", ascii "HEAD", ascii "OPTIONS", ascii "TRACE"].contains method

/-- The statuses of a server error. -/
def isServerError (status : ℕ) : Bool := 500 ≤ status && status ≤ 599

/-- A server error that the pool is to retry. -/
def retryableStatus (config : LoadBalancerRetryRuntimeStats) (status : ℕ) : Bool :=
  isServerError status &&
    (config.statuses.contains status ||
      config.statusRanges.any fun range =>
        isServerError range.start && isServerError range.stop &&
          (range.start ≤ status && status ≤ range.stop))

/-- The retries that are left. -/
structure LoadBalancerRetrySequence where
  retry : LoadBalancerRetryRuntimeStats
  remaining : ℕ

variable (retry : LoadBalancerRetryRuntimeStats)

/-- The retries of a request, if it may be repeated at all. -/
def retrySequence (method : Bytes) (replayable : Bool) : LoadBalancerRetrySequence where
  retry := retry
  remaining :=
    if replayable && retry.enabled && retry.maxRetries ≤ 10 && safeMethod method &&
        retry.methods.contains method then retry.maxRetries
    else 0

namespace LoadBalancerRetrySequence

/-- `LoadBalancerRetrySequence::reserve`, after a transport failure or a response with a status. -/
def reserve (sequence : LoadBalancerRetrySequence) (status : Option ℕ) (budget : RetryBudget)
    (now : Instant) : Option RetryBudgetReservation × RetryBudget :=
  if sequence.remaining = 0 || status.any (!retryableStatus sequence.retry ·) then (none, budget)
  else budget.reserveAt now

/-- A retry is sent. -/
def commit (sequence : LoadBalancerRetrySequence) (reservation : RetryBudgetReservation)
    (budget : RetryBudget) : LoadBalancerRetrySequence × RetryBudget :=
  ({ sequence with remaining := sequence.remaining - 1 }, budget.commit reservation)

theorem reserve_eq_some {sequence : LoadBalancerRetrySequence} {status : Option ℕ}
    {budget after : RetryBudget} {now : Instant} {reservation : RetryBudgetReservation}
    (h : sequence.reserve status budget now = (some reservation, after)) :
    0 < sequence.remaining := by
  apply pos_of_ne_zero
  intro hnone
  simp [reserve, hnone] at h

/-- Retries are for safe methods of the configuration, and for requests that can be sent again. -/
theorem retrySequence_remaining (method : Bytes) (replayable : Bool) :
    (retrySequence retry method replayable).remaining ≤ retry.maxRetries ∧
      (0 < (retrySequence retry method replayable).remaining →
        replayable = true ∧ retry.enabled = true ∧ safeMethod method = true ∧
          method ∈ retry.methods) := by
  unfold retrySequence
  split_ifs with hallow
  · simp only [Bool.and_eq_true, decide_eq_true_eq, List.contains_eq_mem] at hallow
    obtain ⟨⟨⟨⟨hrep, hen⟩, -⟩, hsafe⟩, hmet⟩ := hallow
    exact ⟨le_rfl, fun _ => ⟨hrep, hen, hsafe, hmet⟩⟩
  · exact ⟨Nat.zero_le _, fun h => absurd h (lt_irrefl 0)⟩

end LoadBalancerRetrySequence

namespace RetryBudget

variable (budget : RetryBudget)

theorem rollOver_admitted (now : Instant) : (budget.rollOver now).admitted = budget.admitted := by
  unfold rollOver
  split_ifs <;> rfl

theorem reserveAt_admitted (now : Instant) :
    (budget.reserveAt now).2.admitted = budget.admitted := by
  unfold reserveAt
  dsimp only
  split_ifs
  · rfl
  all_goals exact rollOver_admitted budget now

theorem commit_admitted (reservation : RetryBudgetReservation) :
    (budget.commit reservation).admitted = min (budget.admitted + 1) (2 ^ 64 - 1) := rfl

theorem drop_admitted (reservation : RetryBudgetReservation) :
    (budget.drop reservation).admitted = budget.admitted := by
  unfold drop
  split
  · rfl
  · split_ifs <;> rfl

end RetryBudget

theorem LoadBalancerRetrySequence.reserve_admitted (sequence : LoadBalancerRetrySequence)
    (status : Option ℕ) (budget : RetryBudget) (now : Instant) :
    (sequence.reserve status budget now).2.admitted = budget.admitted := by
  unfold reserve
  split_ifs
  · rfl
  · exact budget.reserveAt_admitted now

/-- Within a window a reservation takes one place. -/
theorem LoadBalancerRetrySequence.reserve_of_not_expired (sequence : LoadBalancerRetrySequence)
    (status : Option ℕ) {budget : RetryBudget} {now : Instant} (h : budget.expired now = false) :
    sequence.reserve status budget now = (none, budget) ∨
      sequence.reserve status budget now =
        (some ⟨some budget.started⟩, { budget with used := budget.used + 1 }) := by
  have hroll : budget.rollOver now = budget := by simp [RetryBudget.rollOver, h]
  unfold reserve RetryBudget.reserveAt
  rw [hroll]
  dsimp only
  split_ifs
  · exact .inl rfl
  · exact .inl rfl
  · exact .inl rfl
  · exact .inl rfl
  · exact .inr rfl

/-- A retry is given a member that has not been tried. -/
theorem UpstreamLoadBalancer.selectExcluding_not_mem {pool after : UpstreamLoadBalancer}
    {env : SelectionEnvironment} {req : LoadBalancerRequestView} {clientIp : Option IpAddr}
    {attempted : List SocketAddr} {selected : SelectedUpstream}
    (h : pool.selectExcluding env req clientIp attempted = (some selected, after)) :
    selected.backend.addr ∉ attempted := by
  rw [selectExcluding] at h
  split at h
  · cases h
  · rename_i policy hpol
    have hgiven := select_givenOut (Prod.ext (Prod.mk.inj h).1 rfl)
    exact not_mem_of_excludeAttempted hpol hgiven.offered.enabled

/-- The permit of a selected backend is given back: an atomic subtraction, which wraps. -/
def UpstreamLoadBalancer.releasePermit (pool : UpstreamLoadBalancer) (permit : Option Key) :
    UpstreamLoadBalancer :=
  match permit with
  | none => pool
  | some key =>
    { pool with
      counters := Function.update pool.counters key
        ((pool.counters key + USIZE_MAX) % (USIZE_MAX + 1)) }

end Fluxheim.Balancer
