import Mathlib.Data.Finset.Card
import Fluxheim.Lib.Run
import Fluxheim.Balancer.BackendHealth

/-!
# Members at run time

The members of a static pool can be changed while it runs.  The members and their health stand in
two tables that are replaced together.
-/

namespace Fluxheim.Balancer

open Ascii AList

def MAX_RUNTIME_BACKEND_COUNT : ℕ := 256

/-- The members and their health. -/
structure FluxLoadBalancerRuntime where
  updateFrequency : Option Duration
  backends : Finset FluxBackend := ∅
  health : AList fun _ : Key => FluxBackendHealthInner := ∅

namespace FluxLoadBalancerRuntime

variable (runtime : FluxLoadBalancerRuntime)

/-- The health of a member, if there is one with that key. -/
def modifyHealth (key : Key) (f : FluxBackendHealthInner → FluxBackendHealthInner) :
    FluxLoadBalancerRuntime :=
  match runtime.health.lookup key with
  | none => runtime
  | some health => { runtime with health := runtime.health.insert key (f health) }

variable (backend : FluxBackend)

/-- The administrator's switch of a member. -/
def setEnable (enabled : Bool) : FluxLoadBalancerRuntime :=
  runtime.modifyHealth (backendKey backend) (·.enable enabled)

/-- The outcome of one health check. -/
def checkOne (thresholds : HealthThresholds) (backend : FluxBackend) (healthy : Bool) :
    FluxLoadBalancerRuntime :=
  runtime.modifyHealth (backendKey backend) fun health =>
    (health.observe healthy (thresholds.healthThreshold healthy)).2

/-- The health of a backend that was discovered. -/
def discoveredHealth (enablement : AList fun _ : Key => Bool) (backend : FluxBackend) :
    FluxBackendHealthInner :=
  let health := (runtime.health.lookup (backendKey backend)).getD {}
  match enablement.lookup (backendKey backend) with
  | some enabled => health.enable enabled
  | none => health

/-- A discovery, with the backends in the order of the set. -/
def updateInner (discovered : List FluxBackend) (enablement : AList fun _ : Key => Bool) :
    FluxLoadBalancerRuntime :=
  if runtime.backends ≠ discovered.toFinset then
    { runtime with
      backends := discovered.toFinset
      health := AList.insertAll (discovered.map fun backend =>
        ⟨backendKey backend, runtime.discoveredHealth enablement backend⟩) ∅ }
  else enablement.entries.foldl (fun runtime e => runtime.modifyHealth e.1 (·.enable e.2)) runtime

/-- Some member has the key. -/
def Configured (key : Key) : Prop := ∃ backend ∈ runtime.backends, backendKey backend = key

instance (key : Key) : Decidable (runtime.Configured key) :=
  inferInstanceAs (Decidable (∃ _ ∈ _, _))

/-- An entry for a key that may have one. -/
def orDefault (key : Key) (health : AList fun _ : Key => FluxBackendHealthInner) :
    AList fun _ : Key => FluxBackendHealthInner :=
  if key ∈ health then health else health.insert key {}

/-- The entries after a member has been replaced. -/
def updatedHealth (currentKey updatedKey : Key)
    (health : AList fun _ : Key => FluxBackendHealthInner) :
    AList fun _ : Key => FluxBackendHealthInner :=
  if currentKey ≠ updatedKey then orDefault updatedKey (health.erase currentKey)
  else orDefault updatedKey health

def NOT_STATIC : String := "runtime backend-set mutation is available only for static upstream pools"

/-- A member joins. -/
def addRuntimeBackend : Except String ℕ × FluxLoadBalancerRuntime :=
  if runtime.updateFrequency.isSome then (.error NOT_STATIC, runtime)
  else if runtime.Configured (backendKey backend) then
    (.error "load balancer member is already configured in this pool", runtime)
  else if MAX_RUNTIME_BACKEND_COUNT ≤ runtime.backends.card then
    (.error "load balancer backend-set size limit reached; remove a member before adding another",
      runtime)
  else
    let nextBackends := insert backend runtime.backends
    (.ok nextBackends.card, { runtime with
      backends := nextBackends
      health := orDefault (backendKey backend) runtime.health })

/-- A member leaves, but not the last. -/
def removeRuntimeBackend : Except String ℕ × FluxLoadBalancerRuntime :=
  if runtime.updateFrequency.isSome then (.error NOT_STATIC, runtime)
  else if runtime.backends.card ≤ 1 then
    (.error "load balancer member cannot be removed because at least one backend must remain",
      runtime)
  else if ¬ runtime.Configured (backendKey backend) then
    (.error "load balancer member is not configured in this pool", runtime)
  else
    let nextBackends := runtime.backends.filter (backendKey · ≠ backendKey backend)
    (.ok nextBackends.card, { runtime with
      backends := nextBackends
      health := runtime.health.erase (backendKey backend) })

/-- A member is replaced. -/
def updateRuntimeBackend (current updated : FluxBackend) :
    Except String ℕ × FluxLoadBalancerRuntime :=
  let currentKey := backendKey current
  let updatedKey := backendKey updated
  if runtime.updateFrequency.isSome then (.error NOT_STATIC, runtime)
  else if ¬ runtime.Configured currentKey then
    (.error "load balancer member is not configured in this pool", runtime)
  else if currentKey ≠ updatedKey ∧ runtime.Configured updatedKey then
    (.error "updated load balancer member address is already configured in this pool", runtime)
  else
    let nextBackends := insert updated (runtime.backends.filter (backendKey · ≠ currentKey))
    (.ok nextBackends.card, { runtime with
      backends := nextBackends
      health := updatedHealth currentKey updatedKey runtime.health })

/-- The changes of the set of members. -/
inductive Mutation
  | add (backend : FluxBackend)
  | remove (backend : FluxBackend)
  | update (current updated : FluxBackend)

/-- The result of a change. -/
def mutate : Mutation → Except String ℕ × FluxLoadBalancerRuntime
  | .add backend => runtime.addRuntimeBackend backend
  | .remove backend => runtime.removeRuntimeBackend backend
  | .update current updated => runtime.updateRuntimeBackend current updated

/-- What happens to the two tables. -/
inductive Event
  | mutate (mutation : Mutation)
  | setEnable (backend : FluxBackend) (enabled : Bool)
  | checkOne (thresholds : HealthThresholds) (backend : FluxBackend) (healthy : Bool)

/-- The tables after an event. -/
def step : Event → FluxLoadBalancerRuntime
  | .mutate mutation => (runtime.mutate mutation).2
  | .setEnable backend enabled => runtime.setEnable backend enabled
  | .checkOne thresholds backend healthy => runtime.checkOne thresholds backend healthy

/-! ### The tables agree -/

/-- The tables have the same keys, and each member has its own. -/
structure Coherent : Prop where
  keys : ∀ key, key ∈ runtime.health ↔ runtime.Configured key
  distinct : Set.InjOn backendKey (runtime.backends : Set FluxBackend)
  nonempty : 1 ≤ runtime.backends.card
  bounded : runtime.backends.card ≤ MAX_RUNTIME_BACKEND_COUNT

/-- The members that stay keep their health. -/
def HealthKept (after : FluxLoadBalancerRuntime) : Prop :=
  ∀ key ∈ runtime.health, key ∈ after.health → after.health.lookup key = runtime.health.lookup key

variable {runtime backend} {key : Key}
  {health : AList fun _ : Key => FluxBackendHealthInner}

theorem mem_orDefault {k : Key} : k ∈ orDefault key health ↔ k = key ∨ k ∈ health := by
  rw [orDefault]
  split_ifs with hmem
  · exact ⟨Or.inr, fun h => h.elim (· ▸ hmem) id⟩
  · exact mem_insert _

theorem lookup_orDefault {k : Key} (h : k ∈ health) :
    (orDefault key health).lookup k = health.lookup k := by
  rw [orDefault]
  split_ifs with hmem
  · rfl
  · have hne : k ≠ key := fun heq => hmem (heq ▸ h)
    exact lookup_insert_ne hne

theorem mem_modifyHealth {f : FluxBackendHealthInner → FluxBackendHealthInner} {k : Key} :
    k ∈ (runtime.modifyHealth key f).health ↔ k ∈ runtime.health := by
  rw [modifyHealth]
  cases hlookup : runtime.health.lookup key with
  | none => exact Iff.rfl
  | some health =>
    have hmem : key ∈ runtime.health := lookup_isSome.1 (by rw [hlookup]; rfl)
    exact (mem_insert _).trans ⟨fun h => h.elim (· ▸ hmem) id, Or.inr⟩

theorem modifyHealth_backends (runtime : FluxLoadBalancerRuntime) (key : Key)
    (f : FluxBackendHealthInner → FluxBackendHealthInner) :
    (runtime.modifyHealth key f).backends = runtime.backends := by
  rw [modifyHealth]
  cases runtime.health.lookup key <;> rfl

theorem Coherent.modifyHealth (h : runtime.Coherent)
    (f : FluxBackendHealthInner → FluxBackendHealthInner) :
    (runtime.modifyHealth key f).Coherent := by
  have hbes := modifyHealth_backends runtime key f
  refine ⟨fun k => ?_, ?_, ?_, ?_⟩
  · rw [mem_modifyHealth, Configured, hbes]
    exact h.keys k
  · rw [hbes]
    exact h.distinct
  · rw [hbes]
    exact h.nonempty
  · rw [hbes]
    exact h.bounded

/-- The members with another key than the given one are all but one. -/
theorem Coherent.card_others (h : runtime.Coherent) (hkey : runtime.Configured key) :
    (runtime.backends.filter (backendKey · ≠ key)).card + 1 = runtime.backends.card := by
  obtain ⟨backend, hbe, rfl⟩ := hkey
  have herase : runtime.backends.filter (backendKey · ≠ backendKey backend) =
      runtime.backends.erase backend := by
    ext b
    rw [Finset.mem_filter, Finset.mem_erase]
    constructor
    · rintro ⟨hb, hne⟩
      exact ⟨fun heq => hne (heq ▸ rfl), hb⟩
    · rintro ⟨hne, hb⟩
      exact ⟨hb, fun heq => hne (h.distinct hb hbe heq)⟩
  rw [herase, Finset.card_erase_add_one hbe]

theorem distinct_insert {backends : Finset FluxBackend}
    (h : Set.InjOn backendKey (backends : Set FluxBackend))
    (hnew : ∀ b ∈ backends, backendKey b ≠ backendKey backend) :
    Set.InjOn backendKey (insert backend backends : Finset FluxBackend) := by
  rw [Finset.coe_insert, Set.injOn_insert fun hmem => hnew backend hmem rfl]
  refine ⟨h, ?_⟩
  rintro ⟨b, hb, heq⟩
  exact hnew b hb heq

theorem configured_insert {backends : Finset FluxBackend} :
    (∃ b ∈ insert backend backends, backendKey b = key) ↔
      key = backendKey backend ∨ ∃ b ∈ backends, backendKey b = key := by
  rw [Finset.exists_mem_insert, eq_comm]

theorem configured_others {gone : Key} :
    (∃ b ∈ runtime.backends.filter (backendKey · ≠ gone), backendKey b = key) ↔
      key ≠ gone ∧ runtime.Configured key := by
  constructor
  · rintro ⟨b, hb, rfl⟩
    obtain ⟨hmem, hne⟩ := Finset.mem_filter.1 hb
    exact ⟨hne, b, hmem, rfl⟩
  · rintro ⟨hne, b, hb, rfl⟩
    exact ⟨b, Finset.mem_filter.2 ⟨hb, hne⟩, rfl⟩

/-- What every change of the members does. -/
structure Mutates (runtime : FluxLoadBalancerRuntime)
    (result : Except String ℕ × FluxLoadBalancerRuntime) : Prop where
  coherent : result.2.Coherent
  kept : runtime.HealthKept result.2
  failed : ∀ e, result.1 = .error e → result.2 = runtime

theorem Coherent.refused (h : runtime.Coherent) (e : String) :
    runtime.Mutates (.error e, runtime) :=
  ⟨h, fun _ _ _ => rfl, fun _ _ => rfl⟩

theorem Coherent.add (h : runtime.Coherent) (backend : FluxBackend) :
    runtime.Mutates (runtime.addRuntimeBackend backend) := by
  rw [addRuntimeBackend]
  split_ifs with hdyn hkey hfull
  · exact h.refused _
  · exact h.refused _
  · exact h.refused _
  · have hnew : ∀ b ∈ runtime.backends, backendKey b ≠ backendKey backend :=
      fun b hb heq => hkey ⟨b, hb, heq⟩
    have hcard : (insert backend runtime.backends).card = runtime.backends.card + 1 :=
      Finset.card_insert_of_notMem fun hmem => hnew backend hmem rfl
    refine ⟨⟨fun key => ?_, distinct_insert h.distinct hnew, ?_, ?_⟩,
      fun key hpre _ => lookup_orDefault hpre, fun e he => nomatch he⟩
    · exact mem_orDefault.trans ((or_congr_right (h.keys key)).trans configured_insert.symm)
    · dsimp only
      omega
    · dsimp only
      omega

theorem Coherent.remove (h : runtime.Coherent) (backend : FluxBackend) :
    runtime.Mutates (runtime.removeRuntimeBackend backend) := by
  rw [removeRuntimeBackend]
  split_ifs with hdyn hlast hkey
  · exact h.refused _
  · exact h.refused _
  · have hcard := h.card_others hkey
    have hbound := h.bounded
    refine ⟨⟨fun key => ?_, h.distinct.mono (Finset.coe_subset.2 (Finset.filter_subset _ _)),
      ?_, ?_⟩, fun key _ hafter => lookup_erase_ne (mem_erase.1 hafter).1,
      fun e he => nomatch he⟩
    · exact mem_erase.trans ((and_congr_right fun _ => h.keys key).trans configured_others.symm)
    · dsimp only
      omega
    · dsimp only
      omega
  · exact h.refused _

theorem mem_updatedHealth {ckey ukey : Key} :
    key ∈ updatedHealth ckey ukey health ↔
      key = ukey ∨ key ≠ ckey ∧ key ∈ health := by
  rw [updatedHealth]
  split_ifs with hne
  · rw [mem_orDefault, mem_erase]
  · -- the key is kept, and with it the entry
    rw [mem_orDefault, not_not.1 hne]
    by_cases heq : key = ukey
    · simp [heq]
    · simp [heq]

/-- The other members keep their entries, and so does one that keeps its key. -/
theorem lookup_updatedHealth {currentKey ukey : Key} (hpre : key ∈ health)
    (hafter : key ∈ updatedHealth currentKey ukey health)
    (hnew : currentKey ≠ ukey → ukey ∉ health) :
    (updatedHealth currentKey ukey health).lookup key = health.lookup key := by
  rw [mem_updatedHealth] at hafter
  rw [updatedHealth]
  split_ifs with hne
  · have hother : key ≠ currentKey := by
      rcases hafter with rfl | hafter
      · exact absurd hpre (hnew hne)
      · exact hafter.1
    rw [lookup_orDefault (mem_erase.2 ⟨hother, hpre⟩), lookup_erase_ne hother]
  · exact lookup_orDefault hpre

theorem Coherent.update (h : runtime.Coherent) (cur updated : FluxBackend) :
    runtime.Mutates (runtime.updateRuntimeBackend cur updated) := by
  rw [updateRuntimeBackend]
  split_ifs with hdyn hcur htaken
  · exact h.refused _
  · exact h.refused _
  · have hfree : backendKey cur ≠ backendKey updated → ¬ runtime.Configured (backendKey updated) :=
      fun hne hkey => htaken ⟨hne, hkey⟩
    -- the updated member may have the key it had, but not that of another
    have hnew : ∀ b ∈ runtime.backends.filter (backendKey · ≠ backendKey cur),
        backendKey b ≠ backendKey updated := by
      intro b hb heq
      obtain ⟨hmem, hne⟩ := Finset.mem_filter.1 hb
      exact hfree (fun hsame => hne (heq.trans hsame.symm)) ⟨b, hmem, heq⟩
    have hcard := h.card_others hcur
    rw [← Finset.card_insert_of_notMem fun hmem => hnew updated hmem rfl] at hcard
    refine ⟨⟨fun key => ?_, distinct_insert
      (h.distinct.mono (Finset.coe_subset.2 (Finset.filter_subset _ _))) hnew,
      hcard ▸ h.nonempty, hcard ▸ h.bounded⟩, fun key hpre hafter =>
        lookup_updatedHealth hpre hafter fun hne hmem => hfree hne ((h.keys _).1 hmem),
      fun e he => nomatch he⟩
    refine mem_updatedHealth.trans (Iff.trans ?_ configured_insert.symm)
    exact or_congr_right ((and_congr_right fun _ => h.keys key).trans configured_others.symm)
  · exact h.refused _

theorem Coherent.mutate (h : runtime.Coherent) (mut_ : Mutation) :
    runtime.Mutates (runtime.mutate mut_) := by
  cases mut_ with
  | add backend => exact h.add backend
  | remove backend => exact h.remove backend
  | update cur upd => exact h.update cur upd

theorem Coherent.step (h : runtime.Coherent) (ev : Event) : (runtime.step ev).Coherent := by
  cases ev with
  | mutate mut_ => exact (h.mutate mut_).coherent
  | setEnable backend enabled => exact h.modifyHealth _
  | checkOne thresholds backend healthy => exact h.modifyHealth _

/-- The pool that the configuration gives. -/
theorem coherent_updateInner {pool : List FluxBackend} (hdistinct : (pool.map backendKey).Nodup)
    (hnon : 1 ≤ pool.length) (hbound : pool.length ≤ MAX_RUNTIME_BACKEND_COUNT)
    (updateFrequency : Option Duration) (enablement : AList fun _ : Key => Bool) :
    (updateInner { updateFrequency } pool enablement).Coherent := by
  have hcard : pool.toFinset.card = pool.length :=
    List.toFinset_card_of_nodup (hdistinct.of_map _)
  have hne : (∅ : Finset FluxBackend) ≠ pool.toFinset := by
    intro hempty
    rw [← hempty, Finset.card_empty] at hcard
    omega
  rw [updateInner, if_pos hne]
  refine ⟨fun key => ?_, ?_, hcard ▸ hnon, hcard ▸ hbound⟩
  · simp only [mem_insertAll_map hdistinct, Configured, List.mem_toFinset]
  · intro a ha b hb heq
    exact List.inj_on_of_nodup_map hdistinct (List.mem_toFinset.1 ha) (List.mem_toFinset.1 hb) heq

/-- In every run from a configured pool the members and the health table agree, there are 1 to 256
members with keys of their own, and whatever change comes next keeps the health of the members that
stay, and everything if it fails. -/
theorem runtime_backends_coherent (updateFrequency : Option Duration)
    (enablement : AList fun _ : Key => Bool) {pool : List FluxBackend}
    (hdistinct : (pool.map backendKey).Nodup) (hnonempty : 1 ≤ pool.length)
    (hbounded : pool.length ≤ MAX_RUNTIME_BACKEND_COUNT) (events : List Event) :
    let runtime := events.foldl step (updateInner { updateFrequency } pool enablement)
    runtime.Coherent ∧ ∀ mut_, runtime.HealthKept (runtime.mutate mut_).2 ∧
      ∀ e, (runtime.mutate mut_).1 = .error e → (runtime.mutate mut_).2 = runtime := by
  intro runtime
  have hstart := coherent_updateInner hdistinct hnonempty hbounded updateFrequency enablement
  have h : runtime.Coherent :=
    Run.foldl_invariant (fun runtime ev h => h.step ev) hstart events
  exact ⟨h, fun mut_ => ⟨(h.mutate mut_).kept, (h.mutate mut_).failed⟩⟩

/-- A member is checked, moves to another port, and a second one joins. -/
theorem runtime_backends_coherent_moved :
    let member (port : ℕ) : FluxBackend := ⟨{ ip := ascii "10.0.0.1", port }, 1⟩
    let runtime := [Event.checkOne ⟨1, 1, by decide, by decide⟩ (member 80) false,
      .mutate (.update (member 80) (member 81)), .mutate (.add (member 82))].foldl step
        (updateInner { updateFrequency := none } [member 80] ∅)
    runtime.Coherent ∧ runtime.backends.card = 2 := by
  intro member runtime
  have h := @runtime_backends_coherent none ∅ [member 80] (List.nodup_singleton _) le_rfl
    (by decide) [Event.checkOne ⟨1, 1, by decide, by decide⟩ (member 80) false,
      .mutate (.update (member 80) (member 81)), .mutate (.add (member 82))]
  exact ⟨h.1, by decide +kernel⟩

end FluxLoadBalancerRuntime

end Fluxheim.Balancer
