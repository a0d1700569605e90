import Fluxheim.Lib.Window
import Fluxheim.Admin.AuthThrottle

/-!
# One source's record in the throttle

The throttle keeps a table of all sources; a statement about one address needs only that address's
record, and what one request, of this or of another source, can do to it.
-/

namespace Fluxheim.Admin

open AdminAuthThrottleState Option AList

variable {A : Type} {config : AdminAuthThrottleConfig} {a : A}
  {state : AdminAuthThrottleState A} {request : AdminRequest A}

variable (now : ℕ)

@[simp] theorem globalLockedUntil_prune :
    (state.prune config now).globalLockedUntil = state.globalLockedUntil := rfl

@[simp] theorem sources_globalAccounting :
    (globalAccounting config now state).1.sources = state.sources := by
  unfold globalAccounting
  split_ifs <;> rfl

variable [DecidableEq A]

/-- The record of an address. -/
def recordOf (state : AdminAuthThrottleState A) (a : A) : Option AdminAuthSourceState :=
  state.sources.lookup (.ip a)

/-- The failures that count against a source. -/
def heldFailures (record : Option AdminAuthSourceState) : List ℕ :=
  (record.map AdminAuthSourceState.failures).getD []

/-- The end of a source's lockout, `0` without one. -/
def lockedUntil (record : Option AdminAuthSourceState) : ℕ :=
  (record.map AdminAuthSourceState.lockedUntil).getD 0

/-- The record after a pruning of the table. -/
def prunedAt (config : AdminAuthThrottleConfig) (now : ℕ)
    (record : Option AdminAuthSourceState) : Option AdminAuthSourceState :=
  record.bind (AdminAuthSourceState.prune config now)

@[simp] theorem recordOf_prune :
    recordOf (state.prune config now) a = prunedAt config now (recordOf state a) :=
  lookup_retain _ _ _

@[simp] theorem heldFailures_prunedAt (r : Option AdminAuthSourceState) :
    heldFailures (prunedAt config now r) =
      pruneFailures (heldFailures r) (now - config.windowSecs) := by
  cases r with
  | none => rfl
  | some r =>
    simp only [prunedAt, bind_some, AdminAuthSourceState.prune, heldFailures, map_some, getD_some]
    split_ifs with h
    · rfl
    · -- a record that goes has no failures left
      rw [not_or, not_not] at h
      simp [h.2]

variable {record : Option AdminAuthSourceState}

/-- A lockout that has not ended survives every pruning. -/
theorem lockedUntil_prunedAt (config : AdminAuthThrottleConfig) {now : ℕ}
    (h : now < lockedUntil record) :
    lockedUntil (prunedAt config now record) = lockedUntil record := by
  cases record with
  | none => rfl
  | some record =>
    have hlocked : now < record.lockedUntil := h
    simp [prunedAt, AdminAuthSourceState.prune, lockedUntil, hlocked]

theorem lockedUntil_prunedAt_le (config : AdminAuthThrottleConfig) (now : ℕ)
    (record : Option AdminAuthSourceState) :
    lockedUntil (prunedAt config now record) ≤ lockedUntil record := by
  cases record with
  | none => exact le_rfl
  | some record =>
    simp only [prunedAt, bind_some, AdminAuthSourceState.prune]
    split_ifs with h
    · exact le_rfl
    · exact Nat.zero_le _

theorem lt_lockedUntil_prunedAt (config : AdminAuthThrottleConfig) {now : ℕ} :
    now < lockedUntil (prunedAt config now record) ↔ now < lockedUntil record := by
  constructor
  · exact fun h => h.trans_le (lockedUntil_prunedAt_le config now record)
  · intro h
    rwa [lockedUntil_prunedAt config h]

section Operations

variable (config state)

/-- The answer of the check, read off the record. -/
theorem lockedScope_eq (record : Option AdminAuthSourceState) :
    (record.bind fun r => if now < r.lockedUntil then some AdminAuthThrottleScope.source else none) =
      if now < lockedUntil record then some .source else none := by
  cases record with
  | none => simp [lockedUntil]
  | some record => rfl

/-- The check prunes, and rejects exactly the source that is locked out. -/
theorem preAuthCheck_eq (hen : config.enabled = true) (source : Option A) (now : ℕ) :
    preAuthCheck config source now state =
      (state.prune config now,
        if now < source.elim 0 (fun b => lockedUntil (recordOf state b)) then some .source
        else none) := by
  simp only [preAuthCheck, hen]
  cases source with
  | none => simp [AuthSource.fromAddress]
  | some b =>
    have hlookup : (state.prune config now).sources.lookup (.ip b) =
        prunedAt config now (recordOf state b) := recordOf_prune now
    simp only [AuthSource.fromAddress, hlookup, lockedScope_eq, elim_some]
    exact congrArg (Prod.mk _) (if_congr (lt_lockedUntil_prunedAt config) rfl rfl)

/-- The source that loses its record so that `source` gets one. -/
def evictedFor (order : AuthSource A → ℕ) (source : AuthSource A) : Option (AuthSource A) :=
  if source ∈ state.sources ∨ state.sources.entries.length < config.maxSources then none
  else staleKey order state

variable (order : AuthSource A → ℕ) (source : AuthSource A)

/-- Making room for a source does not touch its own record. -/
theorem lookup_ensureSourceCapacity_self :
    (ensureSourceCapacity config order state source).1.sources.lookup source =
      state.sources.lookup source := by
  unfold ensureSourceCapacity
  split_ifs with h
  · rfl
  · have hnone : state.sources.lookup source = none :=
      lookup_eq_none.2 fun hmem => h (Or.inl hmem)
    cases staleKey order state with
    | none => rfl
    | some stale =>
      by_cases hs : source = stale
      · subst hs
        rw [lookup_erase, hnone]
      · exact lookup_erase_ne hs

/-- Only the evicted source loses its record. -/
theorem lookup_ensureSourceCapacity {k : AuthSource A}
    (h : evictedFor config state order source ≠ some k) :
    (ensureSourceCapacity config order state source).1.sources.lookup k =
      state.sources.lookup k := by
  unfold evictedFor at h
  unfold ensureSourceCapacity
  split_ifs at h ⊢ with hroom
  · rfl
  · cases hstale : staleKey order state with
    | none => rfl
    | some stale =>
      rw [hstale] at h
      exact lookup_erase_ne fun hk => h (congrArg some hk.symm)

theorem lookup_ensureSourceCapacity_evicted {k : AuthSource A}
    (h : evictedFor config state order source = some k) :
    (ensureSourceCapacity config order state source).1.sources.lookup k = none := by
  unfold evictedFor at h
  unfold ensureSourceCapacity
  split_ifs at h ⊢ with hroom
  rw [h]
  exact lookup_erase _ _

/-- There is always room in a table that may hold a source at all. -/
theorem ensureSourceCapacity_snd (hmax : 0 < config.maxSources) :
    (ensureSourceCapacity config order state source).2 = true := by
  unfold ensureSourceCapacity
  split_ifs with hroom
  · rfl
  · have hne : state.sources.entries ≠ [] := by
      rintro hnil
      exact hroom (Or.inr (by rw [hnil]; exact hmax))
    have hstale : stalest order state.sources.entries ≠ none := by
      rw [stalest, ne_eq, map_eq_none_iff, List.argmin_eq_none]
      exact hne
    cases h : staleKey order state with
    | some stale => rfl
    | none => exact absurd (or_eq_none_iff.1 h).2 hstale

/-- The table after a counted failure of an address. -/
theorem sources_countFailure (b : A) (now : ℕ) :
    (countFailure config order (.ip b) now state).1.sources =
      let room := ensureSourceCapacity config order state (.ip b)
      if room.2 then
        room.1.sources.insert (.ip b)
          (((room.1.sources.lookup (.ip b)).getD {}).charge config now).1
      else room.1.sources := by
  simp only [countFailure]
  rcases ensureSourceCapacity config order state (.ip b) with ⟨s, room⟩
  cases room <;> simp only [sources_globalAccounting] <;> rfl

/-- A counted failure of `a` is charged to the record of `a`. -/
theorem recordOf_countFailure_self (hmax : 0 < config.maxSources) (now : ℕ) :
    recordOf (countFailure config order (.ip a) now state).1 a =
      some (((recordOf state a).getD {}).charge config now).1 := by
  rw [recordOf, sources_countFailure]
  simp only [ensureSourceCapacity_snd config state order (.ip a) hmax, if_true,
    lookup_insert, lookup_ensureSourceCapacity_self]
  rfl

/-- A counted failure of another address leaves the record of `a` alone, or evicts it. -/
theorem recordOf_countFailure_other {b : A} (hb : b ≠ a) (now : ℕ) :
    recordOf (countFailure config order (.ip b) now state).1 a =
      if evictedFor config state order (.ip b) = some (.ip a) then none else recordOf state a := by
  have hne : AuthSource.ip a ≠ .ip b := fun h => hb (AuthSource.ip.inj h).symm
  have hroom : recordOf (countFailure config order (.ip b) now state).1 a =
      (ensureSourceCapacity config order state (.ip b)).1.sources.lookup (.ip a) := by
    rw [recordOf, sources_countFailure]
    dsimp only
    split_ifs
    · exact lookup_insert_ne hne
    · rfl
  rw [hroom]
  split_ifs with h
  · exact lookup_ensureSourceCapacity_evicted config state order _ h
  · exact lookup_ensureSourceCapacity config state order _ h

theorem recordOf_countFailure_unknown (now : ℕ) :
    recordOf (countFailure config order .unknown now state).1 a = recordOf state a := by
  simp only [countFailure, recordOf, sources_globalAccounting]

theorem recordFailure_eq (hen : config.enabled = true) (peer : Option A) (now : ℕ) :
    recordFailure config order peer now state =
      if now < state.globalLockedUntil then (state.prune config now, some .global)
      else countFailure config order (.fromAddress peer) now
        ((state.prune config now).pushGlobalFailure now) := by
  rw [recordFailure, hen]
  rfl

end Operations

/-! ### What a request does to one record -/

section Step

variable (config a state request)

/-- The source that loses its record to a failure of the request's source. -/
def evictedBy : Option (AuthSource A) :=
  match (handleWithSource config state request).2, request.source with
  | .failed _ _, some b =>
    if request.recorded < state.globalLockedUntil then none
    else
      evictedFor config ((state.prune config request.arrival).prune config request.recorded)
        request.order (.ip b)
  | _, _ => none

/-- The record of `a` when the request's failure is recorded: the table has been pruned twice. -/
def recordAtFailure : Option AdminAuthSourceState :=
  prunedAt config request.recorded (prunedAt config request.arrival (recordOf state a))

/-- Everything a request can do to the record of `a`: its outcome, and the record afterwards. -/
inductive SourceStep : AuthOutcome → Option AdminAuthSourceState → Prop
  | throttled (hsource : request.source = some a)
      (hlocked : request.arrival < lockedUntil (recordOf state a)) :
      SourceStep (.throttled .source) (prunedAt config request.arrival (recordOf state a))
  | counted (failure : AuthFailure) (scope : Option AdminAuthThrottleScope)
      (hsource : request.source = some a) (hverdict : request.verdict = .inl failure)
      (hopen : lockedUntil (recordOf state a) ≤ request.arrival)
      (hglobal : state.globalLockedUntil ≤ request.recorded) :
      SourceStep (.failed failure scope)
        (some (((recordAtFailure config a state request).getD {}).charge config request.recorded).1)
  | uncounted (failure : AuthFailure) (scope : Option AdminAuthThrottleScope)
      (hsource : request.source = some a) (hverdict : request.verdict = .inl failure)
      (hopen : lockedUntil (recordOf state a) ≤ request.arrival)
      (hglobal : request.recorded < state.globalLockedUntil) :
      SourceStep (.failed failure scope) (recordAtFailure config a state request)
  | cleared (hsource : request.source = some a) : SourceStep (.authorized .control) none
  | passed (outcome : AuthOutcome)
      (hown : request.source = some a → ∀ failure scope, outcome ≠ .failed failure scope) :
      SourceStep outcome (prunedAt config request.arrival (recordOf state a))
  | other (outcome : AuthOutcome) (hsource : request.source ≠ some a) :
      SourceStep outcome (recordAtFailure config a state request)
  | evicted (outcome : AuthOutcome) (hsource : request.source ≠ some a)
      (hevicted : evictedBy config state request = some (.ip a)) : SourceStep outcome none

variable {config a state request}

/-- The end of the lockout that a request has to wait for. -/
def AdminRequest.lockedUntil (request : AdminRequest A) (state : AdminAuthThrottleState A) : ℕ :=
  request.source.elim 0 fun b => Admin.lockedUntil (recordOf state b)

theorem handleWithSource_of_locked (hen : config.enabled = true)
    (h : request.arrival < request.lockedUntil state) :
    handleWithSource config state request =
      (state.prune config request.arrival, .throttled .source) := by
  rw [handleWithSource, preAuthCheck_eq config state hen]
  simp only [AdminRequest.lockedUntil] at h
  simp only [if_pos h]

theorem handleWithSource_of_failure (hen : config.enabled = true)
    (h : request.lockedUntil state ≤ request.arrival) {failure : AuthFailure}
    (hverdict : request.verdict = .inl failure) :
    handleWithSource config state request =
      let recorded := recordFailure config request.order request.source request.recorded
        (state.prune config request.arrival)
      (recorded.1, .failed failure recorded.2) := by
  rw [handleWithSource, preAuthCheck_eq config state hen]
  simp only [AdminRequest.lockedUntil] at h
  simp only [if_neg h.not_gt, hverdict]

theorem handleWithSource_of_authorization (hen : config.enabled = true)
    (h : request.lockedUntil state ≤ request.arrival) {authorization : AdminAuthorization}
    (hverdict : request.verdict = .inr authorization) :
    handleWithSource config state request =
      match authorization with
      | .forbiddenObserver => (state.prune config request.arrival, .forbidden)
      | .control =>
        (recordSuccess config request.source (state.prune config request.arrival),
          .authorized .control)
      | authorization => (state.prune config request.arrival, .authorized authorization) := by
  rw [handleWithSource, preAuthCheck_eq config state hen]
  simp only [AdminRequest.lockedUntil] at h
  simp only [if_neg h.not_gt, hverdict]
  cases authorization <;> rfl

theorem recordOf_recordSuccess_other {peer : Option A} (hpeer : peer ≠ some a) :
    recordOf (recordSuccess config peer state) a = recordOf state a := by
  unfold recordSuccess
  split_ifs with h
  · rfl
  · cases peer with
    | none => rfl
    | some b => exact lookup_erase_ne fun h => hpeer (by rw [AuthSource.ip.inj h])

theorem recordOf_recordSuccess_self (hen : config.enabled = true) :
    recordOf (recordSuccess config (some a) state) a = none := by
  simp only [recordSuccess, hen, AuthSource.fromAddress]
  exact lookup_erase _ _

/-- The record of `a` in the state in which a failure is counted. -/
theorem recordOf_counting :
    recordOf (((state.prune config request.arrival).prune config request.recorded).pushGlobalFailure
      request.recorded) a = recordAtFailure config a state request := by
  simp only [recordAtFailure, ← recordOf_prune]
  rfl

/-- A request with failing credentials, as it acts on the record of `a`. -/
theorem sourceStep_failure (hen : config.enabled = true) (hmax : 0 < config.maxSources)
    (hopen : request.lockedUntil state ≤ request.arrival) {failure : AuthFailure}
    (hverdict : request.verdict = .inl failure) :
    SourceStep config a state request (handleWithSource config state request).2
      (recordOf (handleWithSource config state request).1 a) := by
  have hhandle := handleWithSource_of_failure hen hopen hverdict
  have hrecd := recordFailure_eq config (state.prune config request.arrival) request.order
    hen request.source request.recorded
  have hown : request.source = some a → lockedUntil (recordOf state a) ≤ request.arrival := by
    intro hsource
    simpa only [AdminRequest.lockedUntil, hsource, elim_some] using hopen
  by_cases hglobal : request.recorded < state.globalLockedUntil
  · rw [globalLockedUntil_prune, if_pos hglobal] at hrecd
    have hafter : recordOf (handleWithSource config state request).1 a =
        recordAtFailure config a state request := by
      rw [hhandle, hrecd, recordOf_prune, recordOf_prune]
      rfl
    rw [hafter]
    by_cases hsource : request.source = some a
    · rw [hhandle]
      exact .uncounted failure _ hsource hverdict (hown hsource) hglobal
    · exact .other _ hsource
  · rw [globalLockedUntil_prune, if_neg hglobal] at hrecd
    -- the failure is counted: against `a`, against another address, or only globally
    cases hpeer : request.source with
    | none =>
      have hafter : recordOf (handleWithSource config state request).1 a =
          recordAtFailure config a state request := by
        rw [hhandle, hrecd, hpeer]
        exact (recordOf_countFailure_unknown config _ request.order _).trans recordOf_counting
      rw [hafter]
      exact .other _ (by simp [hpeer])
    | some b =>
      by_cases hb : b = a
      · subst hb
        have hafter : recordOf (handleWithSource config state request).1 b =
            some (((recordAtFailure config b state request).getD {}).charge config
              request.recorded).1 := by
          rw [hhandle, hrecd, hpeer, ← recordOf_counting]
          exact recordOf_countFailure_self config _ _ hmax _
        rw [hafter, hhandle]
        exact .counted failure _ hpeer hverdict (hown hpeer) (not_lt.1 hglobal)
      · have hsource : request.source ≠ some a := by simp [hpeer, hb]
        have hevict : evictedBy config state request =
            evictedFor config ((state.prune config request.arrival).prune config request.recorded)
              request.order (.ip b) := by
          rw [evictedBy, hhandle, hpeer]
          simp only [if_neg hglobal]
        have hafter : recordOf (handleWithSource config state request).1 a =
            if evictedBy config state request = some (.ip a) then none
            else recordAtFailure config a state request := by
          rw [hhandle, hrecd, hpeer, hevict, ← recordOf_counting]
          exact recordOf_countFailure_other config _ _ hb _
        rw [hafter]
        split_ifs with h
        · exact .evicted _ hsource h
        · exact .other _ hsource

/-- **The router's authentication does to the record of `a` only what `SourceStep` lists.** -/
theorem sourceStep_handleWithSource (hen : config.enabled = true) (hmax : 0 < config.maxSources) :
    SourceStep config a state request (handleWithSource config state request).2
      (recordOf (handleWithSource config state request).1 a) := by
  by_cases hlocked : request.arrival < request.lockedUntil state
  · rw [handleWithSource_of_locked hen hlocked, recordOf_prune]
    by_cases hsource : request.source = some a
    · refine .throttled hsource ?_
      simpa only [AdminRequest.lockedUntil, hsource, elim_some] using hlocked
    · exact .passed _ fun h => absurd h hsource
  · have hopen := not_lt.1 hlocked
    cases hverdict : request.verdict with
    | inl failure => exact sourceStep_failure hen hmax hopen hverdict
    | inr auth =>
      rw [handleWithSource_of_authorization hen hopen hverdict]
      cases auth with
      | control =>
        by_cases hsource : request.source = some a
        · simp only [hsource, recordOf_recordSuccess_self hen]
          exact .cleared hsource
        · simp only [recordOf_recordSuccess_other hsource, recordOf_prune]
          exact .passed _ fun _ => nofun
      | observer => simp only [recordOf_prune]; exact .passed _ fun _ => nofun
      | forbiddenObserver => simp only [recordOf_prune]; exact .passed _ fun _ => nofun
      | invalid => simp only [recordOf_prune]; exact .passed _ fun _ => nofun

end Step

end Fluxheim.Admin
