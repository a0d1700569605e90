import Fluxheim.Balancer.LeastScore

/-!
# Rendezvous hashing

Every backend has a score for the key of a request, and a pass takes the first allowed backend in
the order of the scores, ties by the backend's own key.  So it takes the backend of lowest rank
among those that may be used, and a backend that comes or goes moves only the requests it has
itself.
-/

namespace Fluxheim.Balancer.SelectionContext

open Ascii List

/-- The place of a backend among the candidates: the highest score first, then the lowest key. -/
def rank (context : SelectionContext) (secret : UInt64) (key : Bytes) (backend : FluxBackend) :
    ℕᵒᵈ ×ₗ ℕ :=
  toLex (OrderDual.toDual (consistentBackendScore secret key (backendKey backend)
    (context.backendPolicy.effectiveWeight backend)).toNat, (backendKey backend).toNat)

variable {context : SelectionContext} {secret : UInt64} {key : Bytes} {pass : SelectionPass}
  {s : SelectionState} {inputs : LoadBalancerSelectInputs} {eligible : FluxBackend → Bool}

theorem perm_consistentHashCandidates (context : SelectionContext) (secret : UInt64) (key : Bytes) :
    (context.consistentHashCandidates secret key).Perm context.snapshot.backends := by
  refine ((perm_insertionSort _ _).map _).trans ?_
  rw [map_map]
  exact Perm.of_eq (map_id _)

theorem pairwise_consistentHashCandidates (context : SelectionContext) (secret : UInt64)
    (key : Bytes) :
    (context.consistentHashCandidates secret key).Pairwise fun a b =>
      context.rank secret key a ≤ context.rank secret key b := by
  let place : UInt64 × Key × FluxBackend → ℕᵒᵈ ×ₗ ℕ := fun c =>
    toLex (OrderDual.toDual c.1.toNat, c.2.1.toNat)
  let before : UInt64 × Key × FluxBackend → UInt64 × Key × FluxBackend → Prop := fun a b =>
    b.1 < a.1 ∨ a.1 = b.1 ∧ a.2.1 ≤ b.2.1
  have hpre : ∀ a b, before a b ↔ place a ≤ place b := fun a b => by
    simp only [before, place, Prod.Lex.toLex_le_toLex, OrderDual.toDual_lt_toDual,
      UInt64.lt_iff_toNat_lt, UInt64.le_iff_toNat_le, OrderDual.toDual_inj, UInt64.toNat_inj]
  have : Std.Total before := ⟨fun a b => by
    rw [hpre, hpre]
    exact le_total _ _⟩
  have : IsTrans _ before := ⟨fun a b c => by
    rw [hpre, hpre, hpre]
    exact le_trans⟩
  let scored := context.snapshot.backends.map fun backend =>
    (consistentBackendScore secret key (backendKey backend)
      (context.backendPolicy.effectiveWeight backend), backendKey backend, backend)
  -- a scored candidate carries the rank of its backend
  have hscore : ∀ c ∈ scored.insertionSort before, place c = context.rank secret key c.2.2 := by
    intro c hc
    obtain ⟨backend, -, rfl⟩ := mem_map.1 ((mem_insertionSort before).1 hc)
    rfl
  refine pairwise_map.2 ?_
  refine (pairwise_insertionSort before scored).imp_of_mem ?_
  intro a b ha hb hab
  rw [← hscore a ha, ← hscore b hb]
  exact (hpre a b).1 hab

variable {backend b : FluxBackend}

/-- The first element of an ordered list that passes a test is the least of those that do. -/
theorem minimises_of_find? {R : Type} [PartialOrder R] {ratio : FluxBackend → R}
    {candidates : List FluxBackend} (h : candidates.Pairwise fun a b => ratio a ≤ ratio b)
    (hfind : candidates.find? eligible = some backend) :
    Minimises ratio (candidates.filter eligible) backend := by
  obtain ⟨hyes, before, behind, rfl, hno⟩ := find?_eq_some_iff_append.1 hfind
  refine ⟨mem_filter.2 ⟨by simp, hyes⟩, ?_⟩
  intro other hother
  obtain ⟨hmem, helig⟩ := mem_filter.1 hother
  rcases mem_append.1 hmem with hmem | hmem
  · exact absurd helig (by simpa using hno other hmem)
  rcases mem_cons.1 hmem with rfl | hmem
  · exact le_rfl
  · exact (pairwise_cons.1 (pairwise_append.1 h).2.1).1 other hmem

/-- With distinct keys there is one backend of lowest rank. -/
theorem Minimises.unique {candidates pool : List FluxBackend}
    (hkeys : (pool.map backendKey).Nodup) (hsub : ∀ b ∈ candidates, b ∈ pool)
    {a : FluxBackend} (ha : Minimises (context.rank secret key) candidates a)
    (hb : Minimises (context.rank secret key) candidates b) : a = b := by
  have hrank : context.rank secret key a = context.rank secret key b :=
    le_antisymm (ha.le b hb.mem) (hb.le a ha.mem)
  have hkey : backendKey a = backendKey b :=
    UInt64.toNat_inj.1 (congrArg (fun r => (ofLex r).2) hrank)
  exact inj_on_of_nodup_map hkeys (hsub a ha.mem) (hsub b hb.mem) hkey

/-- Whoever of the members has been asked before, the test answers as the predicate does. -/
def FixedEligibility (context : SelectionContext) (pass : SelectionPass)
    (eligible : FluxBackend → Bool) (s : SelectionState) : Prop :=
  ∀ asked : List FluxBackend, (∀ b ∈ asked, b ∈ context.snapshot.backends) →
    ∀ b ∈ context.snapshot.backends,
      (context.allowed pass b (Cascade.after (context.allowed pass) asked s)).1 = eligible b

theorem selectConsistentHash_eq_find? (h : context.FixedEligibility pass eligible s)
    (hlimit : context.snapshot.backends.length ≤ inputs.maxIterations) :
    (context.selectConsistentHashWithBackupPolicy inputs none pass s).1 =
      (context.consistentHashCandidates inputs.secrets.consistent (inputs.key.getD [])).find?
        eligible := by
  have hperm := context.perm_consistentHashCandidates inputs.secrets.consistent
    (inputs.key.getD [])
  rw [selectConsistentHashWithBackupPolicy]
  simp only [Option.all_none, Bool.and_true]
  rw [take_of_length_le (by rw [hperm.length_eq]; omega)]
  exact Cascade.find_eq_find? fun asked hask b hb =>
    h asked (fun c hc => hperm.mem_iff.1 (hask c hc)) b (hperm.mem_iff.1 hb)

/-- A pass selects the eligible backend of lowest rank, if there is one. -/
theorem selectConsistentHash_iff (h : context.FixedEligibility pass eligible s)
    (hkeys : (context.snapshot.backends.map backendKey).Nodup)
    (hlimit : context.snapshot.backends.length ≤ inputs.maxIterations) (backend : FluxBackend) :
    (context.selectConsistentHashWithBackupPolicy inputs none pass s).1 = some backend ↔
      Minimises (context.rank inputs.secrets.consistent (inputs.key.getD []))
        (context.snapshot.backends.filter eligible) backend := by
  have hperm := context.perm_consistentHashCandidates inputs.secrets.consistent
    (inputs.key.getD [])
  have hfor : ∀ found,
      (context.selectConsistentHashWithBackupPolicy inputs none pass s).1 = some found →
      Minimises (context.rank inputs.secrets.consistent (inputs.key.getD []))
        (context.snapshot.backends.filter eligible) found := by
    intro found hfound
    rw [selectConsistentHash_eq_find? h hlimit] at hfound
    have hleast := minimises_of_find? (context.pairwise_consistentHashCandidates _ _) hfound
    exact ⟨(hperm.filter _).mem_iff.1 hleast.mem, fun other hother =>
      hleast.le other ((hperm.filter _).mem_iff.2 hother)⟩
  refine ⟨hfor backend, fun hleast => ?_⟩
  cases hfound : (context.selectConsistentHashWithBackupPolicy inputs none pass s).1 with
  | none =>
    rw [selectConsistentHash_eq_find? h hlimit, find?_eq_none] at hfound
    obtain ⟨hmem, hyes⟩ := mem_filter.1 hleast.mem
    exact absurd hyes (hfound backend (hperm.mem_iff.2 hmem))
  | some found =>
    rw [(hfor found hfound).unique hkeys (fun b hb => mem_of_mem_filter hb) hleast]

/-- Where slow start has no say the test answers as its read-only form does, and changes nothing. -/
theorem allowed_steady (h : pass.ignoreSlowStart = true ∨ s.slowStart = none)
    (backend : FluxBackend) : context.allowed pass backend s =
      (context.backendCandidateAllowedReadOnly pass s.slowStart backend, s) := by
  simp only [allowed, backendCandidateAllowed, backendCandidateAllowedReadOnly,
    backendCandidateBaseAllowed, backendCandidateBaseAllowedReadOnly]
  rcases h with h | h
  · cases context.admits pass backend <;> simp [h]
  · cases s
    subst h
    cases context.admits pass backend <;> simp [slowStartPermits]

theorem after_steady (h : pass.ignoreSlowStart = true ∨ s.slowStart = none)
    (asked : List FluxBackend) : Cascade.after (context.allowed pass) asked s = s := by
  induction asked with
  | nil => rfl
  | cons b asked ih => rw [Cascade.after_cons, allowed_steady h, ih]

theorem fixedEligibility_steady (h : pass.ignoreSlowStart = true ∨ s.slowStart = none) :
    context.FixedEligibility pass
      (context.backendCandidateAllowedReadOnly pass s.slowStart) s := by
  intro asked _ b _
  rw [after_steady h, allowed_steady h]

/-- The larger pool has one member more, in any place.  Keys are distinct, and the others have the
same weights in both. -/
structure Joined (smaller larger : SelectionContext) (member : FluxBackend) : Prop where
  pool : larger.snapshot.backends.Perm (member :: smaller.snapshot.backends)
  keys : (larger.snapshot.backends.map backendKey).Nodup
  weights : ∀ b ∈ smaller.snapshot.backends,
    larger.backendPolicy.effectiveWeight b = smaller.backendPolicy.effectiveWeight b

/-- Without the member, what it did not have stays; with it, what changes is its own. -/
structure MovesOnly (member : FluxBackend) (smaller larger : Option FluxBackend) : Prop where
  leaving : larger ≠ some member → smaller = larger
  joining : larger ≠ smaller → larger = some member

theorem movesOnly_iff {member : FluxBackend} {smaller larger : Option FluxBackend} :
    MovesOnly member smaller larger ↔ larger = smaller ∨ larger = some member := by
  refine ⟨fun h => or_iff_not_imp_left.2 h.joining,
    fun h => ⟨fun hne => ?_, or_iff_not_imp_left.1 h⟩⟩
  exact (h.resolve_right hne).symm

variable {smaller larger : SelectionContext} {member : FluxBackend} {t : SelectionState}

theorem Joined.smaller_keys (h : Joined smaller larger member) :
    (smaller.snapshot.backends.map backendKey).Nodup := by
  have hkeys := (h.pool.map backendKey).nodup_iff.1 h.keys
  exact (nodup_cons.1 hkeys).2

theorem Joined.rank_eq (h : Joined smaller larger member)
    (hb : b ∈ smaller.snapshot.backends) :
    larger.rank secret key b = smaller.rank secret key b := by
  rw [rank, rank, h.weights b hb]

theorem Joined.mem_smaller (h : Joined smaller larger member)
    (hb : b ∈ larger.snapshot.backends) (hne : b ≠ member) : b ∈ smaller.snapshot.backends :=
  (mem_cons.1 (h.pool.mem_iff.1 hb)).resolve_left hne

theorem Joined.mem_larger (h : Joined smaller larger member)
    (hb : b ∈ smaller.snapshot.backends) : b ∈ larger.snapshot.backends :=
  h.pool.mem_iff.2 (mem_cons_of_mem _ hb)

/-- The lowest rank of the larger pool, if it is not the member's, is that of the smaller one. -/
theorem Joined.minimises (h : Joined smaller larger member)
    (hleast : Minimises (larger.rank secret key) (larger.snapshot.backends.filter eligible) backend)
    (hne : backend ≠ member) :
    Minimises (smaller.rank secret key) (smaller.snapshot.backends.filter eligible) backend := by
  obtain ⟨hmem, hyes⟩ := mem_filter.1 hleast.mem
  have hsmall := h.mem_smaller hmem hne
  refine ⟨mem_filter.2 ⟨hsmall, hyes⟩, fun other hother => ?_⟩
  obtain ⟨hother, hothe⟩ := mem_filter.1 hother
  rw [← h.rank_eq hsmall, ← h.rank_eq hother]
  exact hleast.le other (mem_filter.2 ⟨h.mem_larger hother, hothe⟩)

theorem Joined.movesOnly (h : Joined smaller larger member)
    (hlimit : larger.snapshot.backends.length ≤ inputs.maxIterations)
    (hlarge : larger.FixedEligibility pass eligible s)
    (hsmall : smaller.FixedEligibility pass eligible t) :
    MovesOnly member (smaller.selectConsistentHashWithBackupPolicy inputs none pass t).1
      (larger.selectConsistentHashWithBackupPolicy inputs none pass s).1 := by
  have hlimit' : smaller.snapshot.backends.length ≤ inputs.maxIterations := by
    have := h.pool.length_eq
    rw [length_cons] at this
    omega
  have hiffLarger := selectConsistentHash_iff hlarge h.keys hlimit
  have hiffSmaller := selectConsistentHash_iff hsmall h.smaller_keys hlimit'
  rw [movesOnly_iff]
  cases hfound : (larger.selectConsistentHashWithBackupPolicy inputs none pass s).1 with
  | some backend =>
    by_cases hne : backend = member
    · exact Or.inr (congrArg some hne)
    · exact Or.inl ((hiffSmaller backend).2 (h.minimises ((hiffLarger backend).1 hfound) hne)).symm
  | none =>
    left
    -- nobody is eligible in the larger pool, so nobody is in the smaller
    cases hother : (smaller.selectConsistentHashWithBackupPolicy inputs none pass t).1 with
    | none => rfl
    | some other =>
      have hmem := mem_filter.1 ((hiffSmaller other).1 hother).mem
      rw [selectConsistentHash_eq_find? hlarge hlimit, find?_eq_none] at hfound
      refine absurd hmem.2 (hfound other ?_)
      exact (perm_consistentHashCandidates _ _ _).mem_iff.2 (h.mem_larger hmem.1)

/-- The passes are the same ones for both pools, and each judges the members they share alike. -/
structure SamePasses (smaller larger : SelectionContext) : Prop where
  passes : larger.backendPolicy.selectionPasses = smaller.backendPolicy.selectionPasses
  activated : ∀ pass, larger.priorityActivationSatisfied pass none =
    smaller.priorityActivationSatisfied pass none
  eligible : ∀ pass, ∀ b ∈ smaller.snapshot.backends,
    larger.backendCandidateAllowedReadOnly pass none b =
      smaller.backendCandidateAllowedReadOnly pass none b

theorem selectConsistentHash_steady (h : pass.ignoreSlowStart = true ∨ s.slowStart = none)
    (bound : Option BoundedLoadSnapshot) :
    (context.selectConsistentHashWithBackupPolicy inputs bound pass s).2 = s := by
  refine Cascade.find_snd fun b => ?_
  rw [allowed_steady h]

theorem SamePasses.fixedEligibility (h : SamePasses smaller larger) (ht : t.slowStart = none) :
    smaller.FixedEligibility pass (larger.backendCandidateAllowedReadOnly pass none) t := by
  intro asked hask b hb
  rw [h.eligible pass b hb, ← ht]
  exact fixedEligibility_steady (Or.inr ht) asked hask b hb

theorem Joined.movesOnly_overPasses (h : Joined smaller larger member)
    (hsame : SamePasses smaller larger)
    (hlimit : larger.snapshot.backends.length ≤ inputs.maxIterations)
    (hs : s.slowStart = none) (ht : t.slowStart = none) :
    MovesOnly member (smaller.selectConsistentHash inputs t).1
      (larger.selectConsistentHash inputs s).1 := by
  rw [movesOnly_iff, selectConsistentHash, overPasses, hsame.passes]
  -- without slow start a pass leaves the state as it is
  have hstate : ∀ (context : SelectionContext) (t : SelectionState), t.slowStart = none →
      ∀ pass, (if !context.priorityActivationSatisfied pass t.slowStart then (none, t)
        else context.selectConsistentHashWithBackupPolicy inputs none pass t).2 = t := by
    intro context t ht pass
    split_ifs
    · rfl
    · exact selectConsistentHash_steady (Or.inr ht) none
  refine Cascade.firstSome_eq_or (fun pass _ => hstate larger s hs pass)
    (fun pass _ => hstate smaller t ht pass) fun pass _ => ?_
  rw [hs, ht, hsame.activated pass]
  split_ifs
  · exact Or.inl rfl
  · refine movesOnly_iff.1 (h.movesOnly hlimit ?_ (hsame.fixedEligibility ht))
    rw [← hs]
    exact fixedEligibility_steady (Or.inr hs)

/-- **Only the requests of the member that joins or leaves move**, in a pass whose test of the
members stays the same, and over all passes where those stay the same and there is no slow start. -/
theorem rendezvous_minimal_disruption (h : Joined smaller larger member)
    (inputs : LoadBalancerSelectInputs)
    (hlimit : larger.snapshot.backends.length ≤ inputs.maxIterations) (pass : SelectionPass)
    (eligible : FluxBackend → Bool) (s t : SelectionState) :
    (larger.FixedEligibility pass eligible s → smaller.FixedEligibility pass eligible t →
      MovesOnly member (smaller.selectConsistentHashWithBackupPolicy inputs none pass t).1
        (larger.selectConsistentHashWithBackupPolicy inputs none pass s).1) ∧
    (SamePasses smaller larger → s.slowStart = none → t.slowStart = none →
      MovesOnly member (smaller.selectConsistentHash inputs t).1
        (larger.selectConsistentHash inputs s).1) :=
  ⟨h.movesOnly hlimit, fun hsame => h.movesOnly_overPasses hsame hlimit⟩

theorem rendezvous_minimal_disruption_pair :
    let inputs : LoadBalancerSelectInputs := ⟨some (ascii "/"), 2, ∅, ⟨0, 0, 0⟩⟩
    let lone := loneContext UpstreamLoadBalancer.plainPolicy
    MovesOnly heavyBackend
      (lone.selectConsistentHashWithBackupPolicy inputs none floorPass steadyState).1
      (pairContext.selectConsistentHashWithBackupPolicy inputs none floorPass steadyState).1 ∧
    MovesOnly heavyBackend (lone.selectConsistentHash inputs steadyState).1
      (pairContext.selectConsistentHash inputs steadyState).1 := by
  intro inputs lone
  have hjoin : Joined lone pairContext heavyBackend := ⟨by decide +kernel, by decide +kernel,
    by decide +kernel⟩
  have hact : ∀ pass, pairContext.priorityActivationSatisfied pass none =
      lone.priorityActivationSatisfied pass none := fun pass => by
    simp [priorityActivationSatisfied, pairContext, lone, loneContext,
      UpstreamLoadBalancer.plainPolicy]
  have hsame : SamePasses lone pairContext := ⟨rfl, hact, fun _ _ _ => rfl⟩
  have hmove := rendezvous_minimal_disruption hjoin inputs (by decide +kernel) floorPass
    (pairContext.backendCandidateAllowedReadOnly floorPass none) steadyState steadyState
  exact ⟨hmove.1 (fixedEligibility_steady (Or.inl rfl)) (hsame.fixedEligibility rfl),
    hmove.2 hsame rfl rfl⟩

end Fluxheim.Balancer.SelectionContext
