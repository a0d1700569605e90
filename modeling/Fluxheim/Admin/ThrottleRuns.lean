import Fluxheim.Lib.Run
import Fluxheim.Admin.SourceRecord

/-!
# What the throttle guarantees over a run

Any number of requests from any sources, handled one after the other.  A run is watched from the
outside for one address `a`: which of its requests had their credentials evaluated and rejected
since its last lockout, and when its lockouts began and ended.
-/

namespace Fluxheim.Admin

open Run Window List

variable {A : Type} [DecidableEq A]

/-- The run so far, seen from one address. -/
structure Watch (A : Type) where
  state : AdminAuthThrottleState A := {}
  /-- The latest reading of the clock. -/
  clock : ℕ := 0
  /-- When the address's requests with invalid credentials were evaluated, since its last
  lockout. -/
  attempts : List ℕ := []
  /-- The beginnings and ends of the address's lockouts. -/
  lockouts : List (ℕ × ℕ) := []

/-- The end of the last lockout. -/
def Watch.lockoutEnd (w : Watch A) : ℕ :=
  (w.lockouts.getLast?.map Prod.snd).getD 0

/-- Rejected for its credentials. -/
def AuthOutcome.isFailed : AuthOutcome → Bool
  | .failed _ _ => true
  | _ => false

section Observe

variable (config : AdminAuthThrottleConfig) (a : A)

/-- The request is one of `a` whose credentials are evaluated and rejected. -/
def Evaluated (w : Watch A) (request : AdminRequest A) : Prop :=
  request.source = some a ∧ (handleWithSource config w.state request).2.isFailed = true

instance (w : Watch A) (request : AdminRequest A) : Decidable (Evaluated config a w request) :=
  inferInstanceAs (Decidable (_ ∧ _))

/-- One more request: if it is one of `a` that fails, it is an attempt, and it begins a lockout if
`a` is locked out after it. -/
def observe (w : Watch A) (request : AdminRequest A) : Watch A :=
  let state := (handleWithSource config w.state request).1
  let stop := lockedUntil (recordOf state a)
  if Evaluated config a w request then
    if request.recorded < stop then
      { state, clock := request.recorded, attempts := []
        lockouts := w.lockouts ++ [(request.recorded, stop)] }
    else
      { state, clock := request.recorded, attempts := w.attempts ++ [request.recorded]
        lockouts := w.lockouts }
  else { w with state, clock := request.recorded }

/-- The watched run over a list of requests, from a fresh throttle. -/
def watch (requests : List (AdminRequest A)) : Watch A :=
  requests.foldl (observe config a) {}

/-- The requests that a statement about `a` has to reckon with: they come in the order of time
(before the clock's last second), none takes the record of `a` away, and `a` does not present the
control token.  Where a request records no failure, its second time is not read. -/
structure Ordinary (w : Watch A) (request : AdminRequest A) : Prop where
  ordered : w.clock ≤ request.arrival
  recorded_ge : request.arrival ≤ request.recorded
  recorded_lt : request.recorded < u64Max
  kept : evictedBy config w.state request ≠ some (.ip a)
  unauthenticated : request.source = some a →
    (handleWithSource config w.state request).2 ≠ .authorized .control

instance (w : Watch A) (request : AdminRequest A) : Decidable (Ordinary config a w request) :=
  decidable_of_iff
    (w.clock ≤ request.arrival ∧ request.arrival ≤ request.recorded ∧ request.recorded < u64Max ∧
      evictedBy config w.state request ≠ some (.ip a) ∧
      (request.source = some a →
        (handleWithSource config w.state request).2 ≠ .authorized .control))
    ⟨fun ⟨h₁, h₂, h₃, h₄, h₅⟩ => ⟨h₁, h₂, h₃, h₄, h₅⟩,
      fun ⟨h₁, h₂, h₃, h₄, h₅⟩ => ⟨h₁, h₂, h₃, h₄, h₅⟩⟩

/-- No global lockout is in force when a failure of `a` is recorded. -/
def GloballyOpen (w : Watch A) (request : AdminRequest A) : Prop :=
  request.source = some a → request.verdict.isLeft = true →
    lockedUntil (recordOf w.state a) ≤ request.arrival →
    w.state.globalLockedUntil ≤ request.recorded

instance (w : Watch A) (request : AdminRequest A) : Decidable (GloballyOpen a w request) :=
  inferInstanceAs (Decidable (_ → _))

end Observe

variable {config : AdminAuthThrottleConfig} {a : A} {w : Watch A} {request : AdminRequest A}

@[simp] theorem observe_state :
    (observe config a w request).state = (handleWithSource config w.state request).1 := by
  simp only [observe]
  split_ifs <;> rfl

@[simp] theorem observe_clock : (observe config a w request).clock = request.recorded := by
  simp only [observe]
  split_ifs <;> rfl

/-- A request that begins no lockout of `a`. -/
theorem lockoutEnd_observe (h : Evaluated config a w request →
      lockedUntil (recordOf (handleWithSource config w.state request).1 a) ≤ request.recorded) :
    (observe config a w request).lockoutEnd = w.lockoutEnd := by
  simp only [observe]
  split_ifs with hev hlock
  · exact absurd (h hev) hlock.not_ge
  · rfl
  · rfl

/-- A request that begins one. -/
theorem lockoutEnd_observe_locked (hev : Evaluated config a w request)
    (h : request.recorded < lockedUntil (recordOf (handleWithSource config w.state request).1 a)) :
    (observe config a w request).lockoutEnd =
      lockedUntil (recordOf (handleWithSource config w.state request).1 a) := by
  unfold observe
  rw [if_pos hev, if_pos h]
  simp [Watch.lockoutEnd]

/-- As long as the last lockout of `a` has not ended, the record of `a` says so. -/
def LockHeld (a : A) (w : Watch A) : Prop :=
  w.clock < w.lockoutEnd → lockedUntil (recordOf w.state a) = w.lockoutEnd

theorem lockHeld_observe (hen : config.enabled = true) (hmax : 0 < config.maxSources)
    (hw : LockHeld a w) (hreq : Ordinary config a w request) :
    LockHeld a (observe config a w request) := by
  intro hlt
  rw [observe_clock] at hlt
  rw [observe_state]
  by_cases hnew : Evaluated config a w request ∧
      request.recorded < lockedUntil (recordOf (handleWithSource config w.state request).1 a)
  · rw [lockoutEnd_observe_locked hnew.1 hnew.2]
  · rw [lockoutEnd_observe fun hev => not_lt.1 fun h => hnew ⟨hev, h⟩] at hlt ⊢
    have hrec := hw (hreq.ordered.trans_lt (hreq.recorded_ge.trans_lt hlt))
    rw [← hrec] at hlt ⊢
    have harrival := hreq.recorded_ge.trans_lt hlt
    have htwice : lockedUntil (recordAtFailure config a w.state request) =
        lockedUntil (recordOf w.state a) := by
      have hfirst := lockedUntil_prunedAt config harrival
      rw [recordAtFailure, lockedUntil_prunedAt config (by rw [hfirst]; exact hlt), hfirst]
    -- what the request did to the record, case by case
    have hkept := hreq.kept
    have hanon := hreq.unauthenticated
    generalize hout : (handleWithSource config w.state request).2 = out at hanon
    generalize hafter : recordOf (handleWithSource config w.state request).1 a = after
    have hstep : SourceStep config a w.state request _ _ :=
      sourceStep_handleWithSource hen hmax
    rw [hout, hafter] at hstep
    cases hstep with
    | throttled hsource hlocked => exact lockedUntil_prunedAt config harrival
    | counted failure scope hsource hverdict hopen hglobal => exact absurd harrival hopen.not_gt
    | uncounted failure scope hsource hverdict hopen hglobal => exact absurd harrival hopen.not_gt
    | cleared hsource => exact absurd rfl (hanon hsource)
    | passed out hown => exact lockedUntil_prunedAt config harrival
    | other out hsource => exact htwice
    | evicted out hsource hevict => exact absurd hevict hkept

/-! ### The budget of one address -/

/-- A failure below the threshold is only remembered. -/
theorem charge_of_lt {r : AdminAuthSourceState} {now : ℕ}
    (h : r.failures.length + 1 < config.perSourceFailures) :
    r.charge config now =
      ({ r with lastSeen := now, failures := r.failures ++ [now] }, false) := by
  simp only [AdminAuthSourceState.charge, length_append, length_singleton]
  rw [if_neg h.not_ge]

/-- A failure that reaches it begins a lockout, and the failures are counted afresh. -/
theorem charge_of_le {r : AdminAuthSourceState} {now : ℕ}
    (h : config.perSourceFailures ≤ r.failures.length + 1) :
    r.charge config now =
      ({ failures := []
         lockedUntil := saturatingAddU64 now
           (lockoutSecs config (saturatingAddU32 r.lockouts 1))
         lockouts := saturatingAddU32 r.lockouts 1
         lastSeen := now }, true) := by
  simp only [AdminAuthSourceState.charge, length_append, length_singleton]
  rw [if_pos h]

/-- Every lockout lasts. -/
theorem lockoutSecs_pos (hval : config.Valid) (lockouts : ℕ) : 0 < lockoutSecs config lockouts := by
  have hbase := hval.base_pos
  have hmax := hval.base_le_max
  have hmul : 0 < config.baseLockoutSecs * 2 ^ min (lockouts - 1) 20 :=
    Nat.mul_pos hbase (Nat.two_pow_pos _)
  exact lt_min (lt_min hmul (by decide)) (hbase.trans_le hmax)

theorem lt_saturatingAddU64 {now secs : ℕ} (hnow : now < u64Max) (hsecs : 0 < secs) :
    now < saturatingAddU64 now secs :=
  lt_min (Nat.lt_add_of_pos_right hsecs) hnow

/-- The attempts since the last lockout of `a`, against the failures that its record holds. -/
structure Budget (config : AdminAuthThrottleConfig) (a : A) (w : Watch A) : Prop where
  forgets : Forgets config.windowSecs w.clock w.attempts (heldFailures (recordOf w.state a))
  room : (heldFailures (recordOf w.state a)).length < config.perSourceFailures
  bounded : ∀ start, inWindow start config.windowSecs w.attempts ≤ config.perSourceFailures

/-- What `Budget` says of the record when the table has been pruned. -/
theorem Budget.pruned {attempts held : List ℕ} {clock now : ℕ}
    (hfor : Forgets config.windowSecs clock attempts held)
    (hroom : held.length < config.perSourceFailures) (hle : clock ≤ now) :
    Forgets config.windowSecs now attempts (pruneFailures held (now - config.windowSecs)) ∧
      (pruneFailures held (now - config.windowSecs)).length < config.perSourceFailures :=
  ⟨hfor.trans (forgets_dropWhile _ _ _) hle, (length_dropWhile_le _ _).trans_lt hroom⟩

/-- The record at the time of a failure holds all of the window's attempts, and is not full. -/
theorem Budget.atFailure (hw : Budget config a w) (hreq : Ordinary config a w request) :
    Forgets config.windowSecs request.recorded w.attempts
        (heldFailures (recordAtFailure config a w.state request)) ∧
      (heldFailures (recordAtFailure config a w.state request)).length <
        config.perSourceFailures := by
  have hfirst := pruned hw.forgets hw.room hreq.ordered
  rw [recordAtFailure, heldFailures_prunedAt, heldFailures_prunedAt]
  exact pruned hfirst.1 hfirst.2 hreq.recorded_ge

/-- The next attempt is still within the budget. -/
theorem Budget.next (hw : Budget config a w) (hreq : Ordinary config a w request) (start : ℕ) :
    inWindow start config.windowSecs (w.attempts ++ [request.recorded]) ≤
      config.perSourceFailures :=
  inWindow_concat_le (hw.atFailure hreq).1 (hw.atFailure hreq).2 hw.bounded start

variable (record : Option AdminAuthSourceState)

theorem heldFailures_getD : (record.getD {}).failures = heldFailures record := by
  cases record <;> rfl

theorem lockedUntil_getD : (record.getD {}).lockedUntil = lockedUntil record := by
  cases record <;> rfl

/-- A request that is not an attempt of `a` and leaves a pruned record. -/
theorem Budget.of_not_evaluated (hw : Budget config a w) (hreq : Ordinary config a w request)
    (hev : ¬ Evaluated config a w request)
    (hafter : recordOf (handleWithSource config w.state request).1 a =
        prunedAt config request.arrival (recordOf w.state a) ∨
      recordOf (handleWithSource config w.state request).1 a =
        recordAtFailure config a w.state request) :
    Budget config a (observe config a w request) := by
  have hatts : (observe config a w request).attempts = w.attempts := by
    simp [observe, if_neg hev]
  have hheld : Forgets config.windowSecs request.recorded w.attempts
        (heldFailures (recordOf (handleWithSource config w.state request).1 a)) ∧
      (heldFailures (recordOf (handleWithSource config w.state request).1 a)).length <
        config.perSourceFailures := by
    rcases hafter with hafter | hafter
    · rw [hafter, heldFailures_prunedAt]
      have hfirst := pruned hw.forgets hw.room hreq.ordered
      exact ⟨hfirst.1.trans (Forgets.refl _ _ _) hreq.recorded_ge, hfirst.2⟩
    · rw [hafter]
      exact hw.atFailure hreq
  constructor
  · rw [observe_clock, observe_state, hatts]
    exact hheld.1
  · rw [observe_state]
    exact hheld.2
  · rw [hatts]
    exact hw.bounded

/-- A request of `a` whose failure is counted. -/
theorem Budget.of_counted (hval : config.Valid) (hw : Budget config a w)
    (hreq : Ordinary config a w request) (hev : Evaluated config a w request)
    (hopen : lockedUntil (recordOf w.state a) ≤ request.arrival)
    (hafter : recordOf (handleWithSource config w.state request).1 a =
      some (((recordAtFailure config a w.state request).getD {}).charge config
        request.recorded).1) :
    Budget config a (observe config a w request) := by
  obtain ⟨hfor, hroom⟩ := hw.atFailure hreq
  have hheld := heldFailures_getD (recordAtFailure config a w.state request)
  by_cases hfull : config.perSourceFailures ≤
      (heldFailures (recordAtFailure config a w.state request)).length + 1
  · -- the budget is used up: `a` is locked out, and both sides start afresh
    rw [charge_of_le (by rw [hheld]; exact hfull)] at hafter
    have hlocked : request.recorded <
        lockedUntil (recordOf (handleWithSource config w.state request).1 a) := by
      rw [hafter]
      exact lt_saturatingAddU64 hreq.recorded_lt (lockoutSecs_pos hval _)
    have hatts : (observe config a w request).attempts = [] := by
      simp [observe, if_pos hev, if_pos hlocked]
    constructor
    · rw [observe_state, hatts, hafter]
      exact Forgets.refl _ _ _
    · rw [observe_state, hafter]
      exact hval.perSource_pos
    · intro start
      rw [hatts]
      exact Nat.zero_le _
  · rw [not_le] at hfull
    rw [charge_of_lt (by rw [hheld]; exact hfull)] at hafter
    have hlocked : ¬ request.recorded <
        lockedUntil (recordOf (handleWithSource config w.state request).1 a) := by
      rw [hafter, not_lt]
      rw [lockedUntil_getD]
      exact ((lockedUntil_prunedAt_le _ _ _).trans (lockedUntil_prunedAt_le _ _ _)).trans
        (hopen.trans hreq.recorded_ge)
    have hatts : (observe config a w request).attempts = w.attempts ++ [request.recorded] := by
      simp [observe, if_pos hev, if_neg hlocked]
    have hnow : heldFailures (recordOf (handleWithSource config w.state request).1 a) =
        heldFailures (recordAtFailure config a w.state request) ++ [request.recorded] := by
      rw [hafter, ← hheld]
      rfl
    constructor
    · rw [observe_clock, observe_state, hatts, hnow]
      exact hfor.concat _
    · rw [observe_state, hnow, length_append]
      exact hfull
    · rw [hatts]
      exact hw.next hreq

theorem budget_observe (hen : config.enabled = true) (hval : config.Valid)
    (hw : Budget config a w) (hreq : Ordinary config a w request)
    (hglo : GloballyOpen a w request) : Budget config a (observe config a w request) := by
  have hanon := hreq.unauthenticated
  have hother := hw.of_not_evaluated hreq
  have hcount := hw.of_counted hval hreq
  unfold Evaluated at hother hcount
  have hstep : SourceStep config a w.state request _ _ :=
    sourceStep_handleWithSource hen hval.sources_pos
  generalize (handleWithSource config w.state request).2 = out at hstep hother hcount hanon
  generalize recordOf (handleWithSource config w.state request).1 a = after at hstep hother hcount
  cases hstep with
  | throttled hsource hlocked => exact hother (fun h => Bool.false_ne_true h.2) (Or.inl rfl)
  | counted failure scope hsource hverdict hopen hglobal =>
    exact hcount ⟨hsource, rfl⟩ hopen rfl
  | uncounted failure scope hsource hverdict hopen hglobal =>
    exact absurd (hglo hsource (by rw [hverdict]; rfl) hopen) hglobal.not_ge
  | cleared hsource => exact absurd rfl (hanon hsource)
  | passed out hown =>
    refine hother (fun h => ?_) (Or.inl rfl)
    cases out with
    | failed failure scope => exact hown h.1 failure scope rfl
    | throttled scope => exact Bool.false_ne_true h.2
    | forbidden => exact Bool.false_ne_true h.2
    | authorized auth => exact Bool.false_ne_true h.2
  | other out hsource => exact hother (fun h => hsource h.1) (Or.inr rfl)
  | evicted out hsource hevict => exact absurd hevict hreq.kept

section Runs

variable {requests : List (AdminRequest A)}

theorem lockHeld_watch (hen : config.enabled = true) (hval : config.Valid)
    (hrun : Along (observe config a) (Ordinary config a) {} requests) :
    LockHeld a (watch config a requests) :=
  hrun.invariant (fun _ _ hw hreq => lockHeld_observe hen hval.sources_pos hw hreq)
    fun h => absurd h (Nat.not_lt_zero _)

theorem budget_watch (hen : config.enabled = true) (hval : config.Valid)
    (hrun : Along (observe config a) (Ordinary config a) {} requests)
    (hopen : Along (observe config a) (GloballyOpen a) {} requests) :
    Budget config a (watch config a requests) := by
  refine (hrun.and hopen).invariant
    (fun _ _ hw hreq => budget_observe hen hval hw hreq.1 hreq.2) ?_
  exact ⟨Forgets.refl _ _ _, hval.perSource_pos, fun _ => Nat.zero_le _⟩

/-- **The throttle over a run.**  Before its lockout ends, every request of `a` is rejected with
its credentials not looked at.  If no failure of `a` is recorded during a global lockout, the
attempts of `a` since its last lockout stay within the budget of every window, the one that
begins the next lockout included. -/
theorem throttle_enforced (a : A) (before after : List (AdminRequest A)) (request : AdminRequest A)
    (henabled : config.enabled = true) (hconfig : config.validate = .ok ())
    (hrun : Along (observe config a) (Ordinary config a) {} (before ++ request :: after))
    (hsource : request.source = some a) :
    (request.arrival < (watch config a before).lockoutEnd →
      (handleWithSource config (watch config a before).state request).2 = .throttled .source) ∧
    (Along (observe config a) (GloballyOpen a) {} (before ++ request :: after) →
      Evaluated config a (watch config a before) request →
      ∀ start, inWindow start config.windowSecs
          ((watch config a before).attempts ++ [request.recorded]) ≤ config.perSourceFailures) := by
  have hval := (AdminAuthThrottleConfig.validate_eq_ok_iff henabled).1 hconfig
  have hreq : Ordinary config a (watch config a before) request := hrun.good_at
  constructor
  · intro harrival
    have hheld := lockHeld_watch henabled hval hrun.before
      (hreq.ordered.trans_lt harrival)
    have hlocked : request.arrival < request.lockedUntil (watch config a before).state := by
      rw [AdminRequest.lockedUntil, hsource, Option.elim_some, hheld]
      exact harrival
    rw [handleWithSource_of_locked henabled hlocked]
  · intro hopen _ start
    exact (budget_watch henabled hval hrun.before hopen.before).next hreq start

end Runs

/-- A request of the address `n` with a wrong token. -/
def wrongToken (n time : ℕ) : AdminRequest ℕ :=
  { source := some n, arrival := time, recorded := time }

/-- A small budget: two failures of a source, or of all sources together. -/
def smallBudget : AdminAuthThrottleConfig :=
  { perSourceFailures := 2, globalFailures := 2 }

/-- Room for the failures of two sources. -/
def sharedBudget : AdminAuthThrottleConfig := { smallBudget with globalFailures := 4 }

/-- Two failures of the address `0`, with one of another between them, lock it out, for a request
with the right token too; the failure that began the lockout was within the budget. -/
theorem throttle_enforced_right_token :
    let right := { wrongToken 0 30 with control := true }
    let run := [wrongToken 0 5, wrongToken 1 6, wrongToken 0 7, right]
    Along (observe sharedBudget 0) (Ordinary sharedBudget 0) {} run ∧
      Along (observe sharedBudget 0) (GloballyOpen 0) {} run ∧
      (handleWithSource sharedBudget (watch sharedBudget 0 (run.take 3)).state right).2 =
        .throttled .source ∧
      ∀ start, inWindow start sharedBudget.windowSecs
        ((watch sharedBudget 0 (run.take 2)).attempts ++ [7]) ≤ 2 := by
  intro right run
  have hrun : Along (observe sharedBudget 0) (Ordinary sharedBudget 0) {} run := by decide
  have hopen : Along (observe sharedBudget 0) (GloballyOpen 0) {} run := by decide
  refine ⟨hrun, hopen, ?_, ?_⟩
  · exact (throttle_enforced 0 (run.take 3) [] right rfl (by decide) hrun rfl).1 (by decide)
  · exact (throttle_enforced 0 (run.take 2) [right] (wrongToken 0 7) rfl (by decide) hrun rfl).2
      hopen (by decide)

/-- The failures of the address `1` begin a global lockout, and during it the address `0` has as
many wrong tokens evaluated as it sends: none of them is counted, and it is never locked out. -/
theorem attempts_unbounded_in_global_lockout :
    let run := [wrongToken 1 0, wrongToken 1 1, wrongToken 0 2, wrongToken 0 3, wrongToken 0 4]
    smallBudget.validate = .ok () ∧
      Along (observe smallBudget 0) (Ordinary smallBudget 0) {} run ∧
      (watch smallBudget 0 run).lockouts = [] ∧
      smallBudget.perSourceFailures <
        inWindow 0 smallBudget.windowSecs (watch smallBudget 0 run).attempts := by
  decide

end Fluxheim.Admin
