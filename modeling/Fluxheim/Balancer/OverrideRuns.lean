import Fluxheim.Lib.Run
import Fluxheim.Balancer.SnapshotImport

/-!
# Runtime overrides over a run of changes

The six collections of the overrides belong together: a member is drained, disabled or forced down,
not two of them, and its change time is there exactly as long as one of them is.  A change of state
takes the member out of its set before the new set is tested for room, so a refused change has lost
the override and kept its time.
-/

namespace Fluxheim.Balancer

open Finset

namespace RuntimeBackendPolicyOverrides

/-- What belongs together. -/
structure Consistent (overrides : RuntimeBackendPolicyOverrides) : Prop where
  drain_disabled : Disjoint overrides.drain overrides.disabled
  drain_forcedDown : Disjoint overrides.drain overrides.forcedDown
  disabled_forcedDown : Disjoint overrides.disabled overrides.forcedDown
  changed : ∀ key, key ∈ overrides.changedAtUnixSecs ↔
    key ∈ overrides.drain ∨ key ∈ overrides.disabled ∨ key ∈ overrides.forcedDown
  weighed : ∀ key, key ∈ overrides.weightChangedAtUnixSecs ↔ key ∈ overrides.weights

variable (overrides : RuntimeBackendPolicyOverrides)

/-- The set that a state puts a member in. -/
def target : LoadBalancerRuntimeBackendState → Option (Finset Key)
  | .normal | .manualResume => none
  | .drained => some overrides.drain
  | .disabled => some overrides.disabled
  | .forcedDown => some overrides.forcedDown

/-! ### The changes -/

/-- The changes of the overrides. -/
inductive OverrideChange where
  | setState (now : ℕ) (key : Key) (state : LoadBalancerRuntimeBackendState)
  | setWeight (now : ℕ) (key : Key) (weight : Option ℕ)
  | pruneStale (liveKeys : Finset Key)
  | clearKey (key : Key)
  | commitSnapshot (snapshot : RuntimeBackendPolicySnapshot)

/-- A change, with its answer where it has one. -/
def change : OverrideChange → Bool × RuntimeBackendPolicyOverrides
  | .setState now key state => overrides.setState now key state
  | .setWeight now key weight => overrides.setWeight now key weight
  | .pruneStale liveKeys => (true, overrides.pruneStale liveKeys)
  | .clearKey key => (true, overrides.clearKey key)
  | .commitSnapshot snapshot =>
    match prepareSnapshot snapshot with
    | .error _ => (true, overrides)
    | .ok prepared => (true, prepared)

/-- The overrides after a change. -/
def step (e : OverrideChange) : RuntimeBackendPolicyOverrides :=
  (overrides.change e).2

/-- The change keeps what belongs together, and changes nothing if it is refused. -/
structure Sound (overrides : RuntimeBackendPolicyOverrides) (e : OverrideChange) : Prop where
  consistent : (overrides.change e).2.Consistent
  refused : (overrides.change e).1 = false → (overrides.change e).2 = overrides

/-- A set that is full without the member is asked to take it only if it has no override. -/
def Fits : OverrideChange → Prop
  | .setState _ key state => ∀ keys ∈ overrides.target state,
      MAX_RUNTIME_BACKEND_POLICY_OVERRIDE_ENTRIES ≤ (keys.erase key).card →
        overrides.state key = none
  | _ => True

variable {overrides} {now : ℕ} {key : Key}
  {state : LoadBalancerRuntimeBackendState}

theorem state_eq_none_iff : overrides.state key = none ↔
    key ∉ overrides.drain ∧ key ∉ overrides.disabled ∧ key ∉ overrides.forcedDown := by
  rw [state]
  split_ifs <;> simp_all

theorem unset_eq_self_iff : overrides.unset key = overrides ↔ overrides.state key = none := by
  rw [state_eq_none_iff, ← erase_eq_self, ← erase_eq_self (s := overrides.disabled),
    ← erase_eq_self (s := overrides.forcedDown)]
  constructor
  · intro h
    exact ⟨congrArg drain h, congrArg disabled h, congrArg forcedDown h⟩
  · rintro ⟨h1, h2, h3⟩
    rw [unset, h1, h2, h3]

theorem hasCapacity_erase_iff {keys : Finset Key} :
    runtimeOverrideKeyHasCapacity (keys.erase key) key = true ↔
      (keys.erase key).card < MAX_RUNTIME_BACKEND_POLICY_OVERRIDE_ENTRIES := by
  simp [runtimeOverrideKeyHasCapacity]

/-- The overrides after a change of state that is not refused. -/
def placed (overrides : RuntimeBackendPolicyOverrides) (now : ℕ) (key : Key) :
    LoadBalancerRuntimeBackendState → RuntimeBackendPolicyOverrides
  | .normal | .manualResume =>
    { overrides.unset key with changedAtUnixSecs := overrides.changedAtUnixSecs.erase key }
  | .drained =>
    { overrides.unset key with
      drain := insert key (overrides.drain.erase key)
      changedAtUnixSecs := overrides.changedAtUnixSecs.insert key now }
  | .disabled =>
    { overrides.unset key with
      disabled := insert key (overrides.disabled.erase key)
      changedAtUnixSecs := overrides.changedAtUnixSecs.insert key now }
  | .forcedDown =>
    { overrides.unset key with
      forcedDown := insert key (overrides.forcedDown.erase key)
      changedAtUnixSecs := overrides.changedAtUnixSecs.insert key now }

/-- A change of state is refused, with the member out of its set, or takes place. -/
theorem setState_cases (overrides : RuntimeBackendPolicyOverrides) (now : ℕ) (key : Key)
    (state : LoadBalancerRuntimeBackendState) :
    ((∃ keys ∈ overrides.target state,
        MAX_RUNTIME_BACKEND_POLICY_OVERRIDE_ENTRIES ≤ (keys.erase key).card) ∧
      overrides.setState now key state = (false, overrides.unset key)) ∨
    ((∀ keys ∈ overrides.target state,
        (keys.erase key).card < MAX_RUNTIME_BACKEND_POLICY_OVERRIDE_ENTRIES) ∧
      overrides.setState now key state = (true, overrides.placed now key state)) := by
  cases state with
  | normal | manualResume => exact Or.inr ⟨by simp [target], rfl⟩
  | drained | disabled | forcedDown =>
    simp only [setState, target, Option.mem_def, Option.some.injEq, exists_eq_left', forall_eq',
      Bool.not_eq_true', ← Bool.not_eq_true, unset, hasCapacity_erase_iff, not_lt]
    split_ifs with hroom
    · exact Or.inl ⟨hroom, rfl⟩
    · exact Or.inr ⟨not_le.1 hroom, rfl⟩

/-- The same, from the point of view of one key. -/
theorem consistent_iff : overrides.Consistent ↔ ∀ k,
    ¬ (k ∈ overrides.drain ∧ k ∈ overrides.disabled) ∧
    ¬ (k ∈ overrides.drain ∧ k ∈ overrides.forcedDown) ∧
    ¬ (k ∈ overrides.disabled ∧ k ∈ overrides.forcedDown) ∧
    (k ∈ overrides.changedAtUnixSecs ↔
      k ∈ overrides.drain ∨ k ∈ overrides.disabled ∨ k ∈ overrides.forcedDown) ∧
    (k ∈ overrides.weightChangedAtUnixSecs ↔ k ∈ overrides.weights) := by
  constructor
  · intro h k
    exact ⟨fun hk => disjoint_left.1 h.drain_disabled hk.1 hk.2,
      fun hk => disjoint_left.1 h.drain_forcedDown hk.1 hk.2,
      fun hk => disjoint_left.1 h.disabled_forcedDown hk.1 hk.2, h.changed k, h.weighed k⟩
  · intro h
    exact ⟨disjoint_left.2 fun k h1 h2 => (h k).1 ⟨h1, h2⟩,
      disjoint_left.2 fun k h1 h2 => (h k).2.1 ⟨h1, h2⟩,
      disjoint_left.2 fun k h1 h2 => (h k).2.2.1 ⟨h1, h2⟩,
      fun k => (h k).2.2.2.1, fun k => (h k).2.2.2.2⟩

theorem Consistent.placed (h : overrides.Consistent) (now : ℕ) (key : Key)
    (state : LoadBalancerRuntimeBackendState) : (overrides.placed now key state).Consistent := by
  rw [consistent_iff] at h ⊢
  intro k
  have hk := h k
  by_cases heq : k = key
  · subst heq
    cases state <;> simp [RuntimeBackendPolicyOverrides.placed, unset, hk]
  · cases state <;> simp [RuntimeBackendPolicyOverrides.placed, unset, heq, hk]

theorem Consistent.setWeight (h : overrides.Consistent) (now : ℕ) (key : Key)
    (weight : Option ℕ) : (overrides.setWeight now key weight).2.Consistent := by
  cases weight with
  | none =>
    exact ⟨h.drain_disabled, h.drain_forcedDown, h.disabled_forcedDown, h.changed,
      fun k => by simp [RuntimeBackendPolicyOverrides.setWeight, h.weighed k]⟩
  | some v =>
    rw [RuntimeBackendPolicyOverrides.setWeight]
    split_ifs
    · exact h
    · exact ⟨h.drain_disabled, h.drain_forcedDown, h.disabled_forcedDown, h.changed,
        fun k => by simp [h.weighed k]⟩

theorem setWeight_refused {weight : Option ℕ} (h : (overrides.setWeight now key weight).1 = false) :
    (overrides.setWeight now key weight).2 = overrides := by
  cases weight with
  | none => exact absurd h (by simp [setWeight])
  | some v =>
    rw [setWeight] at h ⊢
    split_ifs at h ⊢
    rfl

theorem Consistent.pruneStale (h : overrides.Consistent) (liveKeys : Finset Key) :
    (overrides.pruneStale liveKeys).Consistent := by
  rw [consistent_iff] at h ⊢
  intro k
  obtain ⟨h1, h2, h3, hchanged, hweighed⟩ := h k
  simp only [RuntimeBackendPolicyOverrides.pruneStale, AList.mem_retainKeys, mem_filter,
    mem_union, Bool.or_eq_true, decide_eq_true_eq]
  refine ⟨fun hk => h1 ⟨hk.1.1, hk.2⟩, fun hk => h2 ⟨hk.1.1, hk.2⟩, h3, ?_, ?_⟩
  · -- a drained member is kept only if it is live, the others always are
    rw [hchanged]
    constructor
    · rintro ⟨hdrain | hoverridden, hkept⟩
      · exact .inl ⟨hdrain, hkept.resolve_right fun hor =>
          hor.elim (fun hk => h1 ⟨hdrain, hk⟩) fun hk => h2 ⟨hdrain, hk⟩⟩
      · exact .inr hoverridden
    · rintro (⟨hdrain, hlive⟩ | hoverridden)
      · exact ⟨.inl hdrain, .inl hlive⟩
      · exact ⟨.inr hoverridden, .inr hoverridden⟩
  · rw [hweighed]

theorem Consistent.clearKey (h : overrides.Consistent) (key : Key) :
    (overrides.clearKey key).Consistent := by
  rw [consistent_iff] at h ⊢
  intro k
  have hk := h k
  by_cases heq : k = key <;> simp [RuntimeBackendPolicyOverrides.clearKey, heq, hk]

theorem consistent_default : ({} : RuntimeBackendPolicyOverrides).Consistent := by
  rw [consistent_iff]
  simp [notMem_empty]

theorem prepareSnapshot_consistent {snap : RuntimeBackendPolicySnapshot}
    {prep : RuntimeBackendPolicyOverrides} (h : prepareSnapshot snap = .ok prep) :
    prep.Consistent := by
  obtain ⟨-, hstates, hval, hweights, -, rfl⟩ := prepareSnapshot_eq_ok_iff.1 h
  -- a key is in one set only, since there is one state for it
  have hone : ∀ k a b, a ≠ b → ¬ (k ∈ keysIn a snap.states ∧ k ∈ keysIn b snap.states) := by
    rintro k a b hne ⟨ha, hb⟩
    obtain ⟨e, hentry, rfl, rfl⟩ := mem_keysIn.1 ha
    obtain ⟨other, hother, rfl, heq⟩ := mem_keysIn.1 hb
    exact hne (congrArg _ (List.inj_on_of_nodup_map hstates hentry hother heq.symm))
  rw [consistent_iff]
  intro k
  refine ⟨hone k _ _ (by decide), hone k _ _ (by decide), hone k _ _ (by decide), ?_, ?_⟩
  · refine (AList.mem_insertAll_map hstates k).trans ?_
    simp only [mem_keysIn]
    constructor
    · rintro ⟨e, hentry, rfl⟩
      obtain ⟨hnor, hres⟩ := hval e hentry
      cases hstate : e.state with
      | normal => exact absurd hstate hnor
      | manualResume => exact absurd hstate hres
      | drained => exact Or.inl ⟨e, hentry, hstate, rfl⟩
      | disabled => exact Or.inr (Or.inl ⟨e, hentry, hstate, rfl⟩)
      | forcedDown => exact Or.inr (Or.inr ⟨e, hentry, hstate, rfl⟩)
    · rintro (⟨e, hentry, -, hkey⟩ | ⟨e, hentry, -, hkey⟩ | ⟨e, hentry, -, hkey⟩) <;>
        exact ⟨e, hentry, hkey⟩
  · exact (AList.mem_insertAll_map hweights k).trans (AList.mem_insertAll_map hweights k).symm

/-- From consistent overrides a change is sound exactly if it fits. -/
theorem sound_iff_fits (h : overrides.Consistent) (e : OverrideChange) :
    overrides.Sound e ↔ overrides.Fits e := by
  cases e with
  | setState now key state =>
    have hcase := setState_cases overrides now key state
    rw [← change.eq_1] at hcase
    rcases hcase with ⟨⟨keys, hkeys, hfull⟩, heq⟩ | ⟨hroom, heq⟩
    · -- refused: nothing is lost exactly if there was nothing to lose
      constructor
      · rintro hsound - - -
        have hsame := hsound.refused (by rw [heq])
        rw [heq] at hsame
        exact unset_eq_self_iff.1 hsame
      · intro hfits
        have hunset := unset_eq_self_iff.2 (hfits keys hkeys hfull)
        rw [hunset] at heq
        exact ⟨by rw [heq]; exact h, fun _ => by rw [heq]⟩
    · constructor
      · intro _ keys hkeys hfull
        exact absurd (hroom keys hkeys) (not_lt.2 hfull)
      · intro _
        exact ⟨by rw [heq]; exact h.placed now key state, fun hno => by simp [heq] at hno⟩
  | setWeight now key weight =>
    exact ⟨fun _ => trivial, fun _ => ⟨h.setWeight now key weight, setWeight_refused⟩⟩
  | pruneStale liveKeys =>
    exact ⟨fun _ => trivial, fun _ => ⟨h.pruneStale liveKeys, fun hno => by simp [change] at hno⟩⟩
  | clearKey key =>
    exact ⟨fun _ => trivial, fun _ => ⟨h.clearKey key, fun hno => by simp [change] at hno⟩⟩
  | commitSnapshot snap =>
    refine ⟨fun _ => trivial, fun _ => ?_⟩
    cases hprep : prepareSnapshot snap with
    | error e => exact ⟨by rw [change, hprep]; exact h, fun _ => by rw [change, hprep]⟩
    | ok prep =>
      exact ⟨by rw [change, hprep]; exact prepareSnapshot_consistent hprep,
        fun hno => by simp [change, hprep] at hno⟩

/-- **A run of changes keeps the overrides consistent, and its refused changes change nothing,
exactly if no full set is asked to take a member that has another override.** -/
theorem overrides_sound_iff (changes : List OverrideChange) :
    ({} : RuntimeBackendPolicyOverrides).Consistent ∧
      (Run.Along step Sound {} changes ↔ Run.Along step Fits {} changes) := by
  refine ⟨consistent_default, fun h => ?_, fun h => ?_⟩
  · exact h.of_invariant (P := Consistent) (fun s e _ hsound => hsound.consistent)
      (fun s e hs hsound => (sound_iff_fits hs e).1 hsound) consistent_default
  · exact h.of_invariant (P := Consistent)
      (fun s e hs hfits => ((sound_iff_fits hs e).2 hfits).consistent)
      (fun s e hs hfits => (sound_iff_fits hs e).2 hfits) consistent_default

/-- As many members are drained as there is room for. -/
def fillDrain (n : ℕ) : List OverrideChange :=
  (List.range n).map fun i => .setState 0 (UInt64.ofNat i) .drained

theorem step_drained_of_room (h : (overrides.drain.erase key).card <
    MAX_RUNTIME_BACKEND_POLICY_OVERRIDE_ENTRIES) :
    overrides.step (.setState now key .drained) = overrides.placed now key .drained := by
  rcases setState_cases overrides now key .drained with ⟨⟨keys, hkeys, hfull⟩, -⟩ | ⟨-, heq⟩
  · obtain rfl := Option.some.inj hkeys
    exact absurd h (not_lt.2 hfull)
  · exact congrArg Prod.snd heq

theorem fillDrain_spec {n : ℕ} (hn : n ≤ MAX_RUNTIME_BACKEND_POLICY_OVERRIDE_ENTRIES) :
    ((fillDrain n).foldl step {}).drain = (Finset.range n).image UInt64.ofNat ∧
      ((fillDrain n).foldl step {}).disabled = ∅ := by
  induction n with
  | zero => simp [fillDrain]
  | succ n ih =>
    obtain ⟨hdrain, hoff⟩ := ih (by omega)
    have hcard : (((fillDrain n).foldl step {}).drain.erase (UInt64.ofNat n)).card <
        MAX_RUNTIME_BACKEND_POLICY_OVERRIDE_ENTRIES := by
      have h1 := card_erase_le (s := ((fillDrain n).foldl step {}).drain)
        (a := UInt64.ofNat n)
      have h2 := card_image_le (s := range n) (f := UInt64.ofNat)
      rw [hdrain] at h1 ⊢
      rw [card_range] at h2
      omega
    rw [fillDrain, List.range_succ, List.map_append, List.foldl_append, ← fillDrain,
      List.map_singleton, List.foldl_cons, step_drained_of_room hcard]
    constructor
    · rw [placed, hdrain, range_add_one]
      ext k
      by_cases hk : k = UInt64.ofNat n <;> simp [hk]
    · rw [placed, unset]
      simp [hoff]

theorem ofNat_eq_ofNat {i j : ℕ} (hi : i < 2 ^ 64) (hj : j < 2 ^ 64)
    (h : UInt64.ofNat i = UInt64.ofNat j) : i = j := by
  have h := congrArg UInt64.toNat h
  rwa [UInt64.toNat_ofNat', UInt64.toNat_ofNat', Nat.mod_eq_of_lt hi, Nat.mod_eq_of_lt hj] at h

theorem card_image_erase {n : ℕ} (hn : n < 2 ^ 64) :
    (((Finset.range n).image UInt64.ofNat).erase (UInt64.ofNat n)).card = n := by
  have hinj : Set.InjOn UInt64.ofNat (range n) := by
    intro i hi j hj hij
    rw [coe_range, Set.mem_Iio] at hi hj
    exact ofNat_eq_ofNat (by omega) (by omega) hij
  rw [erase_eq_of_notMem, card_image_of_injOn hinj, card_range]
  intro hmem
  obtain ⟨i, hi, heq⟩ := mem_image.1 hmem
  rw [mem_range] at hi
  have := ofNat_eq_ofNat (by omega) hn heq
  omega

/-- A disabled member that a full set cannot take loses its override. -/
theorem not_sound_of_full {n : ℕ} (hn : n = MAX_RUNTIME_BACKEND_POLICY_OVERRIDE_ENTRIES) :
    ¬ Run.Along step Sound {}
      (fillDrain n ++
        [.setState 0 (UInt64.ofNat n) .disabled, .setState 0 (UInt64.ofNat n) .drained]) := by
  intro h
  obtain ⟨hdrain, hoff⟩ := fillDrain_spec hn.le
  have hcard := card_image_erase (hn.trans_lt (by decide))
  obtain ⟨-, -, hsound, -⟩ := Run.along_append.1 h
  generalize (fillDrain n).foldl step {} = full at *
  -- the member is disabled
  have hplaced : full.step (.setState 0 (UInt64.ofNat n) .disabled) =
      full.placed 0 (UInt64.ofNat n) .disabled := by
    rcases setState_cases full 0 (UInt64.ofNat n) .disabled with
      ⟨⟨keys, hkeys, hfull⟩, -⟩ | ⟨-, heq⟩
    · obtain rfl := Option.some.inj hkeys
      rw [hoff, erase_empty] at hfull
      exact absurd hfull (by decide)
    · exact congrArg Prod.snd heq
  rw [hplaced] at hsound
  -- and cannot be drained
  rcases setState_cases (full.placed 0 (UInt64.ofNat n) .disabled) 0 (UInt64.ofNat n) .drained with
    ⟨-, heq⟩ | ⟨hroom, -⟩
  · have hsame := hsound.refused (congrArg Prod.fst heq)
    have hnone := unset_eq_self_iff.1 ((congrArg Prod.snd heq).symm.trans hsame)
    rw [state_eq_none_iff] at hnone
    exact hnone.2.1 (mem_insert_self _ _)
  · have hlt := hroom _ rfl
    rw [placed, unset, hdrain, erase_idem] at hlt
    omega

theorem disabled_override_lost :
    ¬ Run.Along step Sound {}
      (fillDrain MAX_RUNTIME_BACKEND_POLICY_OVERRIDE_ENTRIES ++
        [.setState 0 (UInt64.ofNat MAX_RUNTIME_BACKEND_POLICY_OVERRIDE_ENTRIES) .disabled,
          .setState 0 (UInt64.ofNat MAX_RUNTIME_BACKEND_POLICY_OVERRIDE_ENTRIES) .drained]) :=
  not_sound_of_full rfl

end RuntimeBackendPolicyOverrides

end Fluxheim.Balancer
