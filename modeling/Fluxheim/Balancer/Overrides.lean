import Mathlib.Data.Finset.Sort
import Mathlib.Data.List.Sort
import Fluxheim.Lib.Table

/-!
# Runtime overrides of the backends of a pool

What an administrator has changed at run time: members that are drained, disabled or forced down,
and weights.  Every change is recorded with its time.
-/

namespace Fluxheim.Balancer

/-- The key of a backend, a hash of its address. -/
abbrev Key := UInt64

/-- The states a member can be set to. -/
inductive LoadBalancerRuntimeBackendState where
  | normal
  | drained
  | disabled
  | forcedDown
  | manualResume
  deriving DecidableEq

/-- The name of a state. -/
def LoadBalancerRuntimeBackendState.asStr : LoadBalancerRuntimeBackendState → String
  | .normal => "normal"
  | .drained => "drained"
  | .disabled => "disabled"
  | .forcedDown => "forced_down"
  | .manualResume => "manual_resume"

def MAX_RUNTIME_BACKEND_WEIGHT : ℕ := 1000
def MAX_RUNTIME_BACKEND_POLICY_OVERRIDE_ENTRIES : ℕ := 4096

/-- The overrides of a pool. -/
structure RuntimeBackendPolicyOverrides where
  drain : Finset Key := ∅
  disabled : Finset Key := ∅
  forcedDown : Finset Key := ∅
  weights : AList fun _ : Key => ℕ := ∅
  weightChangedAtUnixSecs : AList fun _ : Key => ℕ := ∅
  changedAtUnixSecs : AList fun _ : Key => ℕ := ∅

/-- An exported state. -/
structure RuntimeBackendPolicyStateSnapshot where
  key : Key
  state : LoadBalancerRuntimeBackendState
  changedAtUnixSecs : ℕ

/-- An exported weight. -/
structure RuntimeBackendPolicyWeightSnapshot where
  key : Key
  weight : ℕ
  changedAtUnixSecs : ℕ

/-- The exported overrides. -/
structure RuntimeBackendPolicySnapshot where
  states : List RuntimeBackendPolicyStateSnapshot
  weights : List RuntimeBackendPolicyWeightSnapshot

/-- A set has room for a key, or has it. -/
def runtimeOverrideKeyHasCapacity (keys : Finset Key) (key : Key) : Bool :=
  key ∈ keys || keys.card < MAX_RUNTIME_BACKEND_POLICY_OVERRIDE_ENTRIES

namespace RuntimeBackendPolicyOverrides

/-- The key is in none of the three sets. -/
def unset (key : Key) (overrides : RuntimeBackendPolicyOverrides) : RuntimeBackendPolicyOverrides :=
  { overrides with
    drain := overrides.drain.erase key
    disabled := overrides.disabled.erase key
    forcedDown := overrides.forcedDown.erase key }

/-- A change of state.  The key leaves all three sets before the new one is tested for room. -/
def setState (now : ℕ) (key : Key) (state : LoadBalancerRuntimeBackendState)
    (overrides : RuntimeBackendPolicyOverrides) : Bool × RuntimeBackendPolicyOverrides :=
  let overrides := overrides.unset key
  match state with
  | .normal | .manualResume =>
    (true, { overrides with changedAtUnixSecs := overrides.changedAtUnixSecs.erase key })
  | .drained =>
    if !runtimeOverrideKeyHasCapacity overrides.drain key then (false, overrides)
    else
      (true, { overrides with
        drain := insert key overrides.drain
        changedAtUnixSecs := overrides.changedAtUnixSecs.insert key now })
  | .disabled =>
    if !runtimeOverrideKeyHasCapacity overrides.disabled key then (false, overrides)
    else
      (true, { overrides with
        disabled := insert key overrides.disabled
        changedAtUnixSecs := overrides.changedAtUnixSecs.insert key now })
  | .forcedDown =>
    if !runtimeOverrideKeyHasCapacity overrides.forcedDown key then (false, overrides)
    else
      (true, { overrides with
        forcedDown := insert key overrides.forcedDown
        changedAtUnixSecs := overrides.changedAtUnixSecs.insert key now })

/-- Sets or clears a weight; refused where the table is full. -/
def setWeight (now : ℕ) (key : Key) (weight : Option ℕ)
    (overrides : RuntimeBackendPolicyOverrides) : Bool × RuntimeBackendPolicyOverrides :=
  match weight with
  | some weight =>
    if key ∉ overrides.weights ∧
        MAX_RUNTIME_BACKEND_POLICY_OVERRIDE_ENTRIES ≤ overrides.weights.entries.length then
      (false, overrides)
    else
      (true, { overrides with
        weights := overrides.weights.insert key weight
        weightChangedAtUnixSecs := overrides.weightChangedAtUnixSecs.insert key now })
  | none =>
    (true, { overrides with
      weights := overrides.weights.erase key
      weightChangedAtUnixSecs := overrides.weightChangedAtUnixSecs.erase key })

variable (overrides : RuntimeBackendPolicyOverrides) (key : Key)

/-- The member gets no new requests. -/
def isDrained : Bool :=
  key ∈ overrides.drain

/-- The member is out of use. -/
def isDisabled : Bool :=
  key ∈ overrides.disabled || key ∈ overrides.forcedDown

/-- The state of a member, if it has one. -/
def state : Option LoadBalancerRuntimeBackendState :=
  if key ∈ overrides.forcedDown then some .forcedDown
  else if key ∈ overrides.disabled then some .disabled
  else if key ∈ overrides.drain then some .drained
  else none

/-- The weight that stands for the configured one. -/
def weight (overrides : RuntimeBackendPolicyOverrides) (key : Key) : Option ℕ :=
  overrides.weights.lookup key

/-- The overrides of members that are gone.  Disabled and forced-down members keep theirs. -/
def pruneStale (liveKeys : Finset Key) (overrides : RuntimeBackendPolicyOverrides) :
    RuntimeBackendPolicyOverrides :=
  let retainedOverrideKeys := overrides.disabled ∪ overrides.forcedDown
  let kept (key : Key) : Bool := key ∈ liveKeys || key ∈ retainedOverrideKeys
  { overrides with
    drain := overrides.drain.filter (· ∈ liveKeys)
    changedAtUnixSecs := overrides.changedAtUnixSecs.retainKeys kept
    weights := overrides.weights.retainKeys kept
    weightChangedAtUnixSecs := overrides.weightChangedAtUnixSecs.retainKeys kept }

/-- A member is forgotten. -/
def clearKey (overrides : RuntimeBackendPolicyOverrides) : RuntimeBackendPolicyOverrides :=
  { drain := overrides.drain.erase key
    disabled := overrides.disabled.erase key
    forcedDown := overrides.forcedDown.erase key
    weights := overrides.weights.erase key
    weightChangedAtUnixSecs := overrides.weightChangedAtUnixSecs.erase key
    changedAtUnixSecs := overrides.changedAtUnixSecs.erase key }

/-- The entries of one of the three sets. -/
def stateEntries (keys : Finset Key)
    (state : LoadBalancerRuntimeBackendState) : List RuntimeBackendPolicyStateSnapshot :=
  (keys.sort (· ≤ ·)).map fun key =>
    ⟨key, state, (overrides.changedAtUnixSecs.lookup key).getD 0⟩

/-- The order of exported states: by key, then by the name of the state. -/
def stateEntryLe (a b : RuntimeBackendPolicyStateSnapshot) : Prop :=
  a.key < b.key ∨ a.key = b.key ∧ a.state.asStr ≤ b.state.asStr

instance : DecidableRel stateEntryLe := fun a b =>
  inferInstanceAs (Decidable (a.key < b.key ∨ a.key = b.key ∧ a.state.asStr ≤ b.state.asStr))

/-- The export, in a fixed order. -/
def snapshot (overrides : RuntimeBackendPolicyOverrides) : RuntimeBackendPolicySnapshot where
  states :=
    (overrides.stateEntries overrides.drain .drained ++
      overrides.stateEntries overrides.disabled .disabled ++
      overrides.stateEntries overrides.forcedDown .forcedDown).insertionSort stateEntryLe
  weights :=
    (overrides.weights.entries.map fun e =>
      (⟨e.1, e.2, (overrides.weightChangedAtUnixSecs.lookup e.1).getD 0⟩ :
        RuntimeBackendPolicyWeightSnapshot)).insertionSort fun a b => a.key ≤ b.key

/-- The states of a snapshot, one after the other. -/
def prepareStates : List RuntimeBackendPolicyStateSnapshot → Finset Key →
    RuntimeBackendPolicyOverrides → Except String RuntimeBackendPolicyOverrides
  | [], _, next => .ok next
  | entry :: states, seen, next =>
    if entry.key ∈ seen then
      .error "load balancer runtime override snapshot has duplicate state keys"
    else
      let recorded := { next with
        changedAtUnixSecs := next.changedAtUnixSecs.insert entry.key entry.changedAtUnixSecs }
      match entry.state with
      | .drained =>
        prepareStates states (insert entry.key seen)
          { recorded with drain := insert entry.key next.drain }
      | .disabled =>
        prepareStates states (insert entry.key seen)
          { recorded with disabled := insert entry.key next.disabled }
      | .forcedDown =>
        prepareStates states (insert entry.key seen)
          { recorded with forcedDown := insert entry.key next.forcedDown }
      | .normal | .manualResume =>
        .error "load balancer runtime override snapshot has non-persistent state"

/-- The weights of a snapshot, one after the other. -/
def prepareWeights : List RuntimeBackendPolicyWeightSnapshot → Finset Key →
    RuntimeBackendPolicyOverrides → Except String RuntimeBackendPolicyOverrides
  | [], _, next => .ok next
  | entry :: weights, seen, next =>
    if entry.key ∈ seen then
      .error "load balancer runtime override snapshot has duplicate weight keys"
    else if entry.weight = 0 ∨ MAX_RUNTIME_BACKEND_WEIGHT < entry.weight then
      .error "load balancer runtime override snapshot has invalid weight"
    else
      prepareWeights weights (insert entry.key seen)
        { next with
          weights := next.weights.insert entry.key entry.weight
          weightChangedAtUnixSecs :=
            next.weightChangedAtUnixSecs.insert entry.key entry.changedAtUnixSecs }

/-- The overrides a snapshot stands for, which then replace the current ones. -/
def prepareSnapshot (snapshot : RuntimeBackendPolicySnapshot) :
    Except String RuntimeBackendPolicyOverrides :=
  if MAX_RUNTIME_BACKEND_POLICY_OVERRIDE_ENTRIES < snapshot.states.length ∨
      MAX_RUNTIME_BACKEND_POLICY_OVERRIDE_ENTRIES < snapshot.weights.length then
    .error "load balancer runtime override snapshot exceeds entry limit"
  else do
    let next ← prepareStates snapshot.states ∅ {}
    prepareWeights snapshot.weights ∅ next

end RuntimeBackendPolicyOverrides

end Fluxheim.Balancer
