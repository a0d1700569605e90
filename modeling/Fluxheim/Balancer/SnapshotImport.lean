import Fluxheim.Lib.Fallible
import Fluxheim.Balancer.Persistence

/-!
# Reading a snapshot

When the parts of a snapshot are accepted, and what they then stand for.
-/

namespace Fluxheim.Balancer

open Ascii Fallible AList

namespace RuntimeBackendPolicyOverrides

/-- The keys that a list of states puts in one set. -/
def keysIn (state : LoadBalancerRuntimeBackendState)
    (states : List RuntimeBackendPolicyStateSnapshot) : Finset Key :=
  ((states.filter (·.state = state)).map (·.key)).toFinset

/-- The time of a state. -/
def timeEntry (entry : RuntimeBackendPolicyStateSnapshot) : Σ _ : Key, ℕ :=
  ⟨entry.key, entry.changedAtUnixSecs⟩

variable (entry : RuntimeBackendPolicyWeightSnapshot)

/-- A weight. -/
def weightEntry : Σ _ : Key, ℕ :=
  ⟨entry.key, entry.weight⟩

/-- The time of a weight. -/
def weightTimeEntry : Σ _ : Key, ℕ :=
  ⟨entry.key, entry.changedAtUnixSecs⟩

/-- A state that can be set. -/
def Persistent (entry : RuntimeBackendPolicyStateSnapshot) : Prop :=
  entry.state ≠ .normal ∧ entry.state ≠ .manualResume

/-- A weight in range. -/
def InRange : Prop :=
  entry.weight ≠ 0 ∧ entry.weight ≤ MAX_RUNTIME_BACKEND_WEIGHT

variable {states : List RuntimeBackendPolicyStateSnapshot}
  {entry : RuntimeBackendPolicyStateSnapshot} {state : LoadBalancerRuntimeBackendState}
  {weights : List RuntimeBackendPolicyWeightSnapshot} {seen : Finset Key} {key : Key}
  {next prepared : RuntimeBackendPolicyOverrides}

theorem mem_keysIn :
    key ∈ keysIn state states ↔ ∃ entry ∈ states, entry.state = state ∧ entry.key = key := by
  simp [keysIn, and_assoc]

theorem keysIn_cons_of_eq (h : entry.state = state) :
    keysIn state (entry :: states) = insert entry.key (keysIn state states) := by
  simp [keysIn, h]

theorem keysIn_cons_of_ne (h : entry.state ≠ state) :
    keysIn state (entry :: states) = keysIn state states := by
  simp [keysIn, h]

theorem fresh_cons_insert {α : Type} {key : α → Key} {a : α} {l : List α} :
    Fresh key (· ∈ seen) (a :: l) ↔ key a ∉ seen ∧ Fresh key (· ∈ insert (key a) seen) l :=
  fresh_cons fun _ => Finset.mem_insert

/-- The states are accepted if their keys are new and each can be set, and give the three sets and
the times. -/
theorem prepareStates_eq_ok_iff : prepareStates states seen next = .ok prepared ↔
    Fresh (·.key) (· ∈ seen) states ∧ (∀ entry ∈ states, Persistent entry) ∧
      prepared = { next with
        drain := next.drain ∪ keysIn .drained states
        disabled := next.disabled ∪ keysIn .disabled states
        forcedDown := next.forcedDown ∪ keysIn .forcedDown states
        changedAtUnixSecs := insertAll (states.map timeEntry) next.changedAtUnixSecs } := by
  induction states generalizing seen next with
  | nil => simp [prepareStates, keysIn, insertAll, fresh_nil, eq_comm]
  | cons entry states ih =>
    rw [prepareStates, ite_error_eq_ok, fresh_cons_insert, and_assoc]
    refine and_congr_right fun _ => ?_
    cases hentry : entry.state with
    | normal | manualResume => simp [Persistent, hentry]
    | drained | disabled | forcedDown =>
      -- the key goes to one of the sets, and the others stay
      simp [ih, Persistent, keysIn_cons_of_eq, keysIn_cons_of_ne, hentry, insertAll_cons, timeEntry,
        -mem_insert]

theorem prepareWeights_eq_ok_iff : prepareWeights weights seen next = .ok prepared ↔
    Fresh (·.key) (· ∈ seen) weights ∧ (∀ entry ∈ weights, InRange entry) ∧
      prepared = { next with
        weights := insertAll (weights.map weightEntry) next.weights
        weightChangedAtUnixSecs :=
          insertAll (weights.map weightTimeEntry) next.weightChangedAtUnixSecs } := by
  induction weights generalizing seen next with
  | nil => simp [prepareWeights, insertAll, fresh_nil, eq_comm]
  | cons entry weights ih =>
    rw [prepareWeights, ite_error_eq_ok, ite_error_eq_ok, ih, fresh_cons_insert,
      List.forall_mem_cons, InRange, not_or, not_lt]
    simp only [and_assoc, and_left_comm]
    rfl

theorem prepareSnapshot_eq_ok_iff {snap : RuntimeBackendPolicySnapshot} :
    prepareSnapshot snap = .ok prepared ↔
      (snap.states.length ≤ MAX_RUNTIME_BACKEND_POLICY_OVERRIDE_ENTRIES ∧
        snap.weights.length ≤ MAX_RUNTIME_BACKEND_POLICY_OVERRIDE_ENTRIES) ∧
      (snap.states.map (·.key)).Nodup ∧ (∀ entry ∈ snap.states, Persistent entry) ∧
      (snap.weights.map (·.key)).Nodup ∧ (∀ entry ∈ snap.weights, InRange entry) ∧
      prepared =
        { drain := keysIn .drained snap.states
          disabled := keysIn .disabled snap.states
          forcedDown := keysIn .forcedDown snap.states
          changedAtUnixSecs := insertAll (snap.states.map timeEntry) ∅
          weights := insertAll (snap.weights.map weightEntry) ∅
          weightChangedAtUnixSecs := insertAll (snap.weights.map weightTimeEntry) ∅ } := by
  rw [prepareSnapshot, ite_error_eq_ok, bind_eq_ok, not_or, not_lt, not_lt]
  simp only [prepareStates_eq_ok_iff, prepareWeights_eq_ok_iff, Fresh, Finset.notMem_empty,
    not_false_iff, implies_true, and_true]
  refine and_congr_right fun _ => ?_
  constructor
  · rintro ⟨next, ⟨hstates, hval, rfl⟩, hweights, hrange, rfl⟩
    exact ⟨hstates, hval, hweights, hrange, by simp⟩
  · rintro ⟨hstates, hval, hweights, hrange, rfl⟩
    exact ⟨_, ⟨hstates, hval, rfl⟩, hweights, hrange, by simp⟩

end RuntimeBackendPolicyOverrides

namespace LoadBalancerPersistenceState

variable {state : LoadBalancerPersistenceState} {now : Instant} {liveKeys : Finset Key}

/-- A session with its end. -/
def sessionEntry (now : Instant) (entry : LoadBalancerPersistenceEntrySnapshot) :
    Σ _ : Bytes, LoadBalancerPersistenceEntry :=
  ⟨entry.key, entry.backendKey, now + Duration.fromSecs entry.ttlRemainingSecs⟩

/-- A session whose key and remaining time are such as a pool can have. -/
structure Importable (state : LoadBalancerPersistenceState)
    (entry : LoadBalancerPersistenceEntrySnapshot) : Prop where
  named : entry.key ≠ []
  key_length : entry.key.length ≤ MAX_PERSISTENCE_KEY_BYTES
  left : entry.ttlRemainingSecs ≠ 0
  left_le : entry.ttlRemainingSecs ≤ state.ttlSecs

/-- The sessions are accepted if each of them can be and the keys of those of members are new; the
others are dropped. -/
theorem prepareEntries_eq_ok_iff {es : List LoadBalancerPersistenceEntrySnapshot}
    {next table : AList fun _ : Bytes => LoadBalancerPersistenceEntry} :
    state.prepareEntries now liveKeys es next = .ok table ↔
      (∀ entry ∈ es, state.Importable entry) ∧
      Fresh (·.key) (· ∈ next) (es.filter (·.backendKey ∈ liveKeys)) ∧
      table = insertAll ((es.filter (·.backendKey ∈ liveKeys)).map (sessionEntry now)) next := by
  induction es generalizing next with
  | nil => simp [prepareEntries, insertAll, fresh_nil, eq_comm]
  | cons entry es ih =>
    have hentry : state.Importable entry ↔
        ¬ (entry.key = [] ∨ MAX_PERSISTENCE_KEY_BYTES < entry.key.length) ∧
          ¬ (entry.ttlRemainingSecs = 0 ∨ state.ttlSecs < entry.ttlRemainingSecs) := by
      rw [not_or, not_or, not_lt, not_lt]
      exact ⟨fun h => ⟨⟨h.named, h.key_length⟩, h.left, h.left_le⟩,
        fun h => ⟨h.1.1, h.1.2, h.2.1, h.2.2⟩⟩
    rw [prepareEntries, ite_error_eq_ok, ite_error_eq_ok, List.forall_mem_cons, hentry, and_assoc,
      and_assoc]
    refine and_congr_right fun _ => and_congr_right fun _ => ?_
    by_cases hlive : entry.backendKey ∈ liveKeys
    · rw [if_neg (not_not.2 hlive), ite_error_eq_ok, ih,
        List.filter_cons_of_pos (by simpa using hlive), fresh_cons fun k => mem_insert _,
        and_assoc, and_left_comm]
      rfl
    · -- the session has been checked all the same
      rw [if_pos hlive, ih, List.filter_cons_of_neg (by simpa using hlive)]

end LoadBalancerPersistenceState

end Fluxheim.Balancer
