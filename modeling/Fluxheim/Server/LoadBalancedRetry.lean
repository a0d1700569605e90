import Fluxheim.Balancer.RetrySequence
import Fluxheim.Server.UpstreamResponse

/-!
# Sending a request to a load-balanced pool

The model of `send_load_balanced`: a request is sent to the selected member, and after a failure or
a retryable status to others, each of which has not been tried.  The loop goes round only as often
as retries are left.  The pool and its budget of retries are shared with other requests: what
becomes of them in between may be anything.
-/

namespace Fluxheim.Server

open Ascii Balancer List

/-- A request of the proxy, with what the load balancer reads of it. -/
structure LoadBalancedRequest where
  request : NativeHttp1Request
  trailers : List (Bytes × Bytes)
  clientIp : Option Balancer.IpAddr
  view : LoadBalancerRequestView

/-- The request asks for another protocol. -/
def asksForUpgrade (headers : List (Bytes × Bytes)) : Bool :=
  headers.any fun field =>
    eqIgnoreCase field.1 (ascii "upgrade") ||
      (eqIgnoreCase field.1 (ascii "connection") &&
        (field.2.splitOn 44).any fun token => eqIgnoreCase (trimText token) (ascii "upgrade"))

/-- The request can be sent again. -/
def LoadBalancedRequest.replayable (r : LoadBalancedRequest) : Bool :=
  r.request.body = [] && r.trailers = [] && !asksForUpgrade r.request.headers

/-- What requests share of a pool. -/
structure SharedPool where
  pool : UpstreamLoadBalancer
  budget : RetryBudget

/-- The answers to a dispatch, attempt by attempt, and what becomes of the pool in between: what the
report of an attempt changes in it, and what other requests do. -/
structure DispatchWorld where
  transport : ℕ → SelectedUpstream → Bool
  outcome : ℕ → Except NativeHttp1Error NativeHttp1Response
  now : ℕ → Instant
  environment : ℕ → SelectionEnvironment
  afterReport : ℕ → SharedPool → SharedPool
  beforeSelect : ℕ → SharedPool → SharedPool
  beforeCommit : ℕ → SharedPool → SharedPool

/-- What a dispatch leaves behind. -/
structure Dispatch where
  selected : SelectedUpstream
  result : Except NativeHttp1Error NativeHttp1Response
  attempted : List Balancer.SocketAddr
  committed : List RetryBudgetReservation
  dropped : List RetryBudgetReservation
  shared : SharedPool

/-- The status of a result; a failure has none. -/
def resultStatus : Except NativeHttp1Error NativeHttp1Response → Option ℕ
  | .ok response => some response.status
  | .error _ => none

section Loop

variable (world : DispatchWorld) (retry : LoadBalancerRetryRuntimeStats) (r : LoadBalancedRequest)

/-- A reservation that is dropped with the retry it was for, and the member that was selected for
that retry, if there was one. -/
def abandon (selected : SelectedUpstream) (result : Except NativeHttp1Error NativeHttp1Response)
    (attempted : List Balancer.SocketAddr) (reservation : RetryBudgetReservation)
    (next : Option SelectedUpstream) (shared : SharedPool) : Dispatch where
  selected := selected
  result := result
  attempted := attempted
  committed := []
  dropped := [reservation]
  shared :=
    { pool := shared.pool.releasePermit (next.bind (·.permit))
      budget := shared.budget.drop reservation }

/-- The loop of `send_load_balanced` from the attempt `i` on, with `remaining` retries left. -/
def sendLoop : (remaining i : ℕ) → SharedPool → List Balancer.SocketAddr → SelectedUpstream →
    Dispatch
  | remaining, i, shared, attempted, selected =>
    let attempted := attempted ++ [selected.backend.addr]
    let result := world.outcome i
    let shared := world.afterReport i shared
    let sequence : LoadBalancerRetrySequence := ⟨retry, remaining⟩
    match sequence.reserve (resultStatus result) shared.budget (world.now i) with
    | (none, budget) => ⟨selected, result, attempted, [], [], { shared with budget := budget }⟩
    | (some reservation, budget) =>
      let shared := world.beforeSelect i
        { pool := shared.pool.releasePermit selected.permit, budget := budget }
      let selected := { selected with permit := none }
      match shared.pool.selectExcluding (world.environment i) r.view r.clientIp attempted with
      | (none, pool) =>
        abandon selected result attempted reservation none { shared with pool := pool }
      | (some next, pool) =>
        if !world.transport (i + 1) next then
          abandon selected result attempted reservation (some next) { shared with pool := pool }
        else
          let shared := world.beforeCommit i { shared with pool := pool }
          -- a reservation is given only when a retry is left, so that the first case does not arise
          match remaining with
          | 0 => ⟨selected, result, attempted, [], [], shared⟩
          | remaining + 1 =>
            let rest := sendLoop remaining (i + 1)
              { shared with budget := (sequence.commit reservation shared.budget).2 } attempted next
            { rest with committed := reservation :: rest.committed }

/-- The loop ends with the attempt `i`: there was no reservation, or it is dropped. -/
structure LastRound (i : ℕ) (attempted : List Balancer.SocketAddr) (selected : SelectedUpstream)
    (reserved : Option RetryBudgetReservation × RetryBudget) (d : Dispatch) : Prop where
  backend : d.selected.backend = selected.backend
  result : d.result = world.outcome i
  addresses : d.attempted = attempted ++ [selected.backend.addr]
  committed : d.committed = []
  reservation : (reserved.1 = none ∧ d.dropped = [] ∧ d.shared.budget = reserved.2) ∨
    ∃ reservation pool, reserved.1 = some reservation ∧ d.dropped = [reservation] ∧
      d.shared.budget = (world.beforeSelect i ⟨pool, reserved.2⟩).budget.drop reservation

/-- The reservation that is asked for after the attempt `i`. -/
def reservedAfter (remaining i : ℕ) (shared : SharedPool) :
    Option RetryBudgetReservation × RetryBudget :=
  (LoadBalancerRetrySequence.mk retry remaining).reserve (resultStatus (world.outcome i))
    (world.afterReport i shared).budget (world.now i)

/-- What a round of the loop does: it is the last one, or it commits a reservation and goes on with
a member that has not been tried. -/
theorem sendLoop_cases (left i : ℕ) (shared : SharedPool) (tried : List Balancer.SocketAddr)
    (selected : SelectedUpstream) :
    let d := sendLoop world retry r left i shared tried selected
    let reserved := reservedAfter world retry left i shared
    LastRound world i tried selected reserved d ∨
    ∃ rest reservation pool pool' next after,
      left = rest + 1 ∧ reserved.1 = some reservation ∧
      next.backend.addr ∉ tried ++ [selected.backend.addr] ∧
      after.budget = (world.beforeCommit i
        ⟨pool', (world.beforeSelect i ⟨pool, reserved.2⟩).budget⟩).budget.commit reservation ∧
      d = let tail := sendLoop world retry r rest (i + 1) after
            (tried ++ [selected.backend.addr]) next
          { tail with committed := reservation :: tail.committed } := by
  intro d reserved
  have hd : d = sendLoop world retry r left i shared tried selected := rfl
  rw [sendLoop] at hd
  rcases hres : (LoadBalancerRetrySequence.mk retry left).reserve
    (resultStatus (world.outcome i)) (world.afterReport i shared).budget (world.now i) with
    ⟨reservation?, budget⟩
  have hreserved : reserved = (reservation?, budget) := hres
  rw [hres] at hd
  rw [hreserved]
  cases reservation? with
  | none => exact .inl (hd ▸ ⟨rfl, rfl, rfl, rfl, .inl ⟨rfl, rfl, rfl⟩⟩)
  | some reservation =>
    dsimp only at hd
    split at hd
    · exact .inl (hd ▸ ⟨rfl, rfl, rfl, rfl, .inr ⟨reservation, _, rfl, rfl, rfl⟩⟩)
    · rename_i next pool hsel
      split_ifs at hd with htransport
      · exact .inl (hd ▸ ⟨rfl, rfl, rfl, rfl, .inr ⟨reservation, _, rfl, rfl, rfl⟩⟩)
      · cases left with
        | zero => exact absurd (LoadBalancerRetrySequence.reserve_eq_some hres) (lt_irrefl 0)
        | succ rest =>
          exact .inr ⟨rest, reservation, _, _, next, _, rfl, rfl,
            UpstreamLoadBalancer.selectExcluding_not_mem hsel, rfl, hd⟩

/-- The loop has made `k` retries from the attempt `i` on. -/
structure Dispatch.Retried (d : Dispatch) (i k : ℕ) (attempted : List Balancer.SocketAddr) :
    Prop where
  attempts : d.attempted.length = attempted.length + (k + 1)
  distinct : d.attempted.Nodup
  last : d.attempted.getLast? = some d.selected.backend.addr
  result : d.result = world.outcome (i + k)
  committed : d.committed.length = k
  dropped : d.dropped.length ≤ 1

theorem LastRound.retried {i : ℕ} {tried : List Balancer.SocketAddr} {selected : SelectedUpstream}
    {reserved : Option RetryBudgetReservation × RetryBudget} {d : Dispatch}
    (h : LastRound world i tried selected reserved d)
    (hnod : (tried ++ [selected.backend.addr]).Nodup) : d.Retried world i 0 tried where
  attempts := by rw [h.addresses, length_append, length_singleton]
  distinct := by rwa [h.addresses]
  last := by rw [h.addresses, getLast?_concat, h.backend]
  result := h.result
  committed := by rw [h.committed, length_nil]
  dropped := by
    obtain ⟨-, hd, -⟩ | ⟨reservation, _, -, hd, -⟩ := h.reservation
    · rw [hd]
      exact Nat.zero_le 1
    · rw [hd, length_singleton]

/-- **The loop sends the request to members that differ, and makes one attempt more than it commits
reservations.** -/
theorem sendLoop_retried (left : ℕ) : ∀ (i : ℕ) (shared : SharedPool)
    (attempted : List Balancer.SocketAddr) (selected : SelectedUpstream), attempted.Nodup →
    selected.backend.addr ∉ attempted →
    ∃ k ≤ left,
      (sendLoop world retry r left i shared attempted selected).Retried world i k attempted := by
  induction left using Nat.strong_induction_on with
  | _ left ih =>
    intro i shared attempted selected hnod hfresh
    have hnext : (attempted ++ [selected.backend.addr]).Nodup := by
      rw [nodup_append]
      exact ⟨hnod, nodup_singleton _, fun a ha b hb hab =>
        hfresh (mem_singleton.1 hb ▸ hab ▸ ha)⟩
    obtain h | ⟨rest, reservation, _, _, next, after, rfl, -, hnew, -, hd⟩ :=
      sendLoop_cases world retry r left i shared attempted selected
    · exact ⟨0, Nat.zero_le _, h.retried world hnext⟩
    · obtain ⟨k, hk, htail⟩ := ih rest (Nat.lt_succ_self rest) (i + 1) after _ next hnext hnew
      refine ⟨k + 1, Nat.succ_le_succ hk, ?_⟩
      rw [hd]
      refine ⟨?_, htail.distinct, htail.last, ?_, ?_, htail.dropped⟩
      · have hlen := htail.attempts
        rw [length_append, length_singleton] at hlen
        exact hlen.trans (by omega)
      · exact htail.result.trans (by rw [add_right_comm, add_assoc])
      · exact congrArg (· + 1) htail.committed

/-! ### The budget of a pool that no other request uses -/

/-- Nothing but the dispatch itself changes the budget. -/
structure DispatchWorld.LeavesBudget : Prop where
  afterReport : ∀ i shared, (world.afterReport i shared).budget = shared.budget
  beforeSelect : ∀ i shared, (world.beforeSelect i shared).budget = shared.budget
  beforeCommit : ∀ i shared, (world.beforeCommit i shared).budget = shared.budget

variable {world}

/-- The places that are counted for good are those of the retries that were made. -/
theorem sendLoop_admitted (hworld : world.LeavesBudget) (left : ℕ) :
    ∀ (i : ℕ) (shared : SharedPool) (tried : List Balancer.SocketAddr)
      (selected : SelectedUpstream),
    shared.budget.admitted ≤ 2 ^ 64 - 1 →
    let d := sendLoop world retry r left i shared tried selected
    d.shared.budget.admitted =
      min (shared.budget.admitted + d.committed.length) (2 ^ 64 - 1) := by
  induction left using Nat.strong_induction_on with
  | _ left ih =>
    intro i shared tried selected hbound d
    have hreserved : (reservedAfter world retry left i shared).2.admitted =
        shared.budget.admitted := by
      rw [reservedAfter, LoadBalancerRetrySequence.reserve_admitted, hworld.afterReport]
    obtain h | ⟨rest, reservation, _, _, next, after, rfl, -, -, hafter, hd⟩ :=
      sendLoop_cases world retry r left i shared tried selected
    · rw [h.committed, length_nil, add_zero, min_eq_left hbound, ← hreserved]
      obtain ⟨-, -, hbudget⟩ | ⟨_, _, -, -, hbudget⟩ := h.reservation
      · rw [hbudget]
      · rw [hbudget, RetryBudget.drop_admitted, hworld.beforeSelect]
    · have hadmits : after.budget.admitted = min (shared.budget.admitted + 1) (2 ^ 64 - 1) := by
        rw [hafter, RetryBudget.commit_admitted, hworld.beforeCommit, hworld.beforeSelect,
          hreserved]
      have htail := ih rest (Nat.lt_succ_self rest) (i + 1) after
        (tried ++ [selected.backend.addr]) next (by rw [hadmits]; exact min_le_right _ _)
      have hdone : d = _ := hd
      rw [hdone, length_cons]
      dsimp only at htail ⊢
      omega

/-- Within a window the dispatch leaves the budget with one place more in use for each retry. -/
theorem sendLoop_used (hworld : world.LeavesBudget) (left : ℕ) :
    ∀ (i : ℕ) (shared : SharedPool) (tried : List Balancer.SocketAddr)
      (selected : SelectedUpstream),
    (∀ j, shared.budget.expired (world.now j) = false) →
    let d := sendLoop world retry r left i shared tried selected
    d.shared.budget.used = shared.budget.used + d.committed.length := by
  induction left using Nat.strong_induction_on with
  | _ left ih =>
    intro i shared tried selected hopen d
    have hreserved := (LoadBalancerRetrySequence.mk retry left).reserve_of_not_expired
      (resultStatus (world.outcome i)) (hopen i)
    rw [← hworld.afterReport i shared] at hreserved
    change reservedAfter world retry left i shared = _ ∨
      reservedAfter world retry left i shared = _ at hreserved
    rw [hworld.afterReport i shared] at hreserved
    obtain h | ⟨rest, reservation, _, _, next, after, rfl, hsome, -, hafter, hd⟩ :=
      sendLoop_cases world retry r left i shared tried selected
    · rw [h.committed, length_nil, add_zero]
      obtain ⟨hnone, -, hbudget⟩ | ⟨reservation, _, hsome, -, hbudget⟩ := h.reservation
      · obtain heq | heq := hreserved
        · rw [hbudget, heq]
        · rw [heq] at hnone
          cases hnone
      · obtain heq | heq := hreserved
        · rw [heq] at hsome
          cases hsome
        · rw [heq] at hsome
          obtain rfl := Option.some.inj hsome
          rw [hbudget, hworld.beforeSelect, heq]
          simp [RetryBudget.drop]
    · obtain heq | heq := hreserved
      · rw [heq] at hsome
        cases hsome
      · rw [hworld.beforeCommit, hworld.beforeSelect, heq] at hafter
        have htail := ih rest (Nat.lt_succ_self rest) (i + 1) after
          (tried ++ [selected.backend.addr]) next (by rw [hafter]; exact hopen)
        have hdone : d = _ := hd
        rw [hdone, length_cons]
        rw [htail, hafter]
        simp only [RetryBudget.commit, RetryBudget.drop]
        omega

end Loop

/-- The error for a member without a transport. -/
def missingTransport : NativeHttp1Error := .io "load-balanced upstream transport unavailable"

/-- `send_load_balanced`, for a proxy with a load balancer or without. -/
def sendLoadBalanced (world : DispatchWorld) (retry : Option LoadBalancerRetryRuntimeStats)
    (shared : SharedPool) (r : LoadBalancedRequest) (selected : SelectedUpstream) : Dispatch :=
  match retry with
  | none => ⟨selected, .error missingTransport, [], [], [], shared⟩
  | some retry =>
    if !world.transport 0 selected then
      ⟨selected, .error missingTransport, [], [], [], world.afterReport 0 shared⟩
    else
      sendLoop world retry r (retrySequence retry r.request.method r.replayable).remaining 0 shared
        [] selected

section

variable {world : DispatchWorld} {shared : SharedPool} {r : LoadBalancedRequest}
  {selected : SelectedUpstream}

/-- A dispatch makes no attempt at all, or is a run of the loop. -/
theorem sendLoadBalanced_cases (retry : Option LoadBalancerRetryRuntimeStats) :
    let d := sendLoadBalanced world retry shared r selected
    (d.attempted = [] ∧ d.committed = [] ∧ d.dropped = [] ∧ d.result = .error missingTransport ∧
      (d.shared = shared ∨ d.shared = world.afterReport 0 shared)) ∨
    ∃ config, retry = some config ∧
      d = sendLoop world config r (retrySequence config r.request.method r.replayable).remaining 0
        shared [] selected := by
  intro d
  have hd : d = sendLoadBalanced world retry shared r selected := rfl
  unfold sendLoadBalanced at hd
  cases retry with
  | none => exact .inl (hd ▸ ⟨rfl, rfl, rfl, rfl, .inl rfl⟩)
  | some config =>
    split_ifs at hd
    · exact .inl (hd ▸ ⟨rfl, rfl, rfl, rfl, .inr rfl⟩)
    · exact .inr ⟨config, rfl, hd⟩

theorem replayable_iff : r.replayable = true ↔
    r.request.body = [] ∧ r.trailers = [] ∧ asksForUpgrade r.request.headers = false := by
  simp [LoadBalancedRequest.replayable, and_assoc]

end

/-- **A request is sent to members whose addresses differ, the last of which is returned with its
result; more than once only if its method is safe and configured and it has no body, trailers or
upgrade; and with one reservation committed for each retry.  If no other request uses the budget, no
other place is counted or still in use.** -/
theorem load_balanced_retries (world : DispatchWorld)
    (retry : Option LoadBalancerRetryRuntimeStats) (shared : SharedPool) (r : LoadBalancedRequest)
    (selected : SelectedUpstream) :
    let d := sendLoadBalanced world retry shared r selected
    let attempts := d.attempted.length
    d.attempted.Nodup ∧
    (1 < attempts → ∃ config, retry = some config ∧ config.enabled = true ∧
      r.request.method ∈ [ascii "GET", ascii "HEAD", ascii "OPTIONS", ascii "TRACE"] ∧
      r.request.method ∈ config.methods ∧ r.request.body = [] ∧ r.trailers = [] ∧
      asksForUpgrade r.request.headers = false) ∧
    (∀ config, retry = some config → attempts ≤ 1 + config.maxRetries) ∧
    d.committed.length = attempts - 1 ∧ d.dropped.length ≤ 1 ∧
    (0 < attempts → d.result = world.outcome (attempts - 1) ∧
      d.attempted.getLast? = some d.selected.backend.addr) ∧
    (attempts = 0 → d.result = .error missingTransport) ∧
    (world.LeavesBudget → shared.budget.admitted ≤ 2 ^ 64 - 1 →
      d.shared.budget.admitted = min (shared.budget.admitted + (attempts - 1)) (2 ^ 64 - 1) ∧
      ((∀ j, shared.budget.expired (world.now j) = false) →
        d.shared.budget.used = shared.budget.used + (attempts - 1))) := by
  intro d attempts
  obtain ⟨hattempt, hcom, hdrop, hres, hshared⟩ | ⟨config, rfl, hd⟩ :=
    sendLoadBalanced_cases retry
  · have hnone : attempts = 0 := length_eq_zero_iff.2 hattempt
    refine ⟨?_, fun h => by omega, fun _ _ => by omega, ?_, ?_, fun h => by omega,
      fun _ => hres, ?_⟩
    · exact hattempt ▸ nodup_nil
    · rw [hnone]
      exact congrArg length hcom
    · exact hdrop ▸ Nat.zero_le 1
    · intro hworld hbound
      have hbudget : d.shared.budget = shared.budget := by
        obtain h | h := hshared
        · exact congrArg SharedPool.budget h
        · exact (congrArg SharedPool.budget h).trans (hworld.afterReport 0 shared)
      rw [hbudget, hnone]
      exact ⟨(min_eq_left hbound).symm, fun _ => rfl⟩
  · obtain ⟨hlimit, hallow⟩ := LoadBalancerRetrySequence.retrySequence_remaining config
      r.request.method r.replayable
    obtain ⟨k, hk, hretried⟩ := sendLoop_retried world config r
      (retrySequence config r.request.method r.replayable).remaining 0 shared [] selected
      nodup_nil not_mem_nil
    have hdone : d = _ := hd
    rw [← hdone] at hretried
    have hatts : attempts = k + 1 := hretried.attempts.trans (zero_add _)
    have hext : attempts - 1 = k := by omega
    rw [hext]
    refine ⟨hretried.distinct, ?_, ?_, hretried.committed, hretried.dropped, ?_,
      fun h => by omega, ?_⟩
    · intro h
      obtain ⟨hrep, hen, hsafe, hmet⟩ := hallow (by omega)
      exact ⟨config, rfl, hen, by simpa [safeMethod] using hsafe, hmet,
        replayable_iff.1 hrep⟩
    · intro config' h
      obtain rfl := Option.some.inj h
      omega
    · exact fun _ => ⟨hretried.result.trans (by rw [zero_add]), hretried.last⟩
    · intro hworld hbound
      have hadmits := sendLoop_admitted config r hworld
        (retrySequence config r.request.method r.replayable).remaining 0 shared [] selected hbound
      have hused := sendLoop_used config r hworld
        (retrySequence config r.request.method r.replayable).remaining 0 shared [] selected
      rw [← hdone] at hadmits hused
      dsimp only at hadmits hused
      rw [hretried.committed] at hadmits hused
      exact ⟨hadmits, hused⟩

/-- A pool of two, and a budget of ten retries a minute. -/
def pairShared : SharedPool where
  pool :=
    { UpstreamLoadBalancer.lonePool with
      snapshot := ⟨[UpstreamLoadBalancer.loneBackend,
        ⟨{ ip := ascii "10.0.0.2", port := 80 }, 1⟩], ∅, false⟩ }
  budget := .new 10 60 0

/-- The first attempt fails. -/
def refusingWorld : DispatchWorld where
  transport := fun _ _ => true
  outcome := fun
    | 0 => .error (.io "connection refused")
    | _ => .ok ⟨200, ascii "OK", [], some 0, []⟩
  now := fun _ => 0
  environment := fun _ => UpstreamLoadBalancer.plainEnvironment
  afterReport := fun _ shared => shared
  beforeSelect := fun _ shared => shared
  beforeCommit := fun _ shared => shared

/-- A request without a body. -/
def getRequest : LoadBalancedRequest where
  request := ⟨ascii "GET", ascii "/", .http11, [], []⟩
  trailers := []
  clientIp := none
  view := UpstreamLoadBalancer.plainRequest

/-- One retry. -/
def retryOnce : LoadBalancerRetryRuntimeStats := ⟨true, 1, [ascii "GET"], [], []⟩

theorem load_balanced_retries_refused :
    let d := sendLoadBalanced refusingWorld (some retryOnce) pairShared getRequest
      { backend := UpstreamLoadBalancer.loneBackend }
    d.attempted.length = 2 ∧ d.attempted.Nodup ∧
      d.result = .ok ⟨200, ascii "OK", [], some 0, []⟩ ∧ d.committed.length = 1 ∧
      d.shared.budget.admitted = 1 ∧ d.shared.budget.used = 1 := by
  intro d
  have htwo : d.attempted.length = 2 := by decide +kernel
  obtain ⟨hdistinct, hsafe, hlimit, hcom, -, hres, -, hbudget⟩ :=
    load_balanced_retries refusingWorld (some retryOnce) pairShared getRequest
      { backend := UpstreamLoadBalancer.loneBackend }
  obtain ⟨config, hconfig, -⟩ := hsafe (lt_of_lt_of_eq (by decide) htwo.symm)
  obtain ⟨hadmits, hused⟩ := hbudget ⟨fun _ _ => rfl, fun _ _ => rfl, fun _ _ => rfl⟩
    (by decide +kernel)
  have hres := (hres (lt_of_lt_of_eq (by decide) htwo.symm)).1
  have hopen : pairShared.budget.expired 0 = false := by decide +kernel
  have hused := hused fun _ => hopen
  rw [htwo] at hcom hadmits hused hres
  exact ⟨htwo, hdistinct, hres, hcom, hadmits, hused⟩

end Fluxheim.Server
