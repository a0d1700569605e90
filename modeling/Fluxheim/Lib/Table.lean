import Mathlib.Data.List.AList

/-!
# Tables with an in-place filter

A finite map as an association list without duplicate keys is Mathlib's `AList`.  This file adds the
operations of hash tables that it lacks.
-/

namespace AList

open List

variable {K V : Type*} (f : V → Option V)

/-- One entry under the pass. -/
def retainEntry (e : Σ _ : K, V) : Option (Σ _ : K, V) :=
  (f e.2).map fun v => ⟨e.1, v⟩

/-- Rewriting and dropping values keeps the order of the keys. -/
theorem keys_retainEntry_sublist (l : List (Σ _ : K, V)) :
    (l.filterMap (retainEntry f)).keys.Sublist l.keys := by
  induction l with
  | nil => exact Sublist.refl _
  | cons e l ih =>
    cases hf : f e.2 with
    | none =>
      simp only [filterMap_cons, retainEntry, hf, Option.map_none, keys_cons]
      exact ih.cons _
    | some v =>
      simp only [filterMap_cons, retainEntry, hf, Option.map_some, keys_cons]
      exact ih.cons_cons _

/-- One pass over the table: every value is rewritten by `f` and dropped where `f` is `none`. -/
def retain (f : V → Option V) (t : AList fun _ : K => V) : AList fun _ : K => V where
  entries := t.entries.filterMap (retainEntry f)
  nodupKeys := (keys_retainEntry_sublist f t.entries).nodup t.nodupKeys

/-- One pass over the table that keeps the entries whose keys pass. -/
def retainKeys (p : K → Bool) (t : AList fun _ : K => V) : AList fun _ : K => V where
  entries := t.entries.filter fun e => p e.1
  nodupKeys := (List.Sublist.map Sigma.fst filter_sublist).nodup t.nodupKeys

theorem length_keys (t : AList fun _ : K => V) : t.keys.length = t.entries.length :=
  length_map _

theorem length_retain_le (t : AList fun _ : K => V) :
    (t.retain f).entries.length ≤ t.entries.length :=
  length_filterMap_le _ _

variable {t : AList fun _ : K => V} {α : Type*} {key : α → K} {l : List α}

/-- A pass that drops a key makes the table smaller. -/
theorem length_retain_lt {f : V → Option V} {k : K} (h : k ∈ t)
    (hdrop : k ∉ t.retain f) : (t.retain f).entries.length < t.entries.length := by
  have hsub : (t.retain f).keys.Sublist t.keys := keys_retainEntry_sublist f t.entries
  refine lt_of_le_of_ne (length_retain_le f t) fun hlen => hdrop ?_
  rw [← length_keys, ← length_keys] at hlen
  rw [mem_keys, hsub.eq_of_length hlen]
  exact mem_keys.1 h

/-- The keys of a list differ from each other and from those seen before. -/
def Fresh {α : Type*} (key : α → K) (seen : K → Prop) (l : List α) : Prop :=
  (l.map key).Nodup ∧ ∀ a ∈ l, ¬ seen (key a)

theorem fresh_nil (key : α → K) (seen : K → Prop) : Fresh key seen [] :=
  ⟨nodup_nil, by simp⟩

/-- The keys are seen one after the other. -/
theorem fresh_cons {seen later : K → Prop} {a : α} (h : ∀ k, later k ↔ k = key a ∨ seen k) :
    Fresh key seen (a :: l) ↔ ¬ seen (key a) ∧ Fresh key later l := by
  simp only [Fresh, map_cons, nodup_cons, forall_mem_cons, mem_map, h, not_or, not_exists, not_and]
  constructor
  · rintro ⟨⟨hne, hnod⟩, hnew, hrest⟩
    exact ⟨hnew, hnod, fun b hb => ⟨hne b hb, hrest b hb⟩⟩
  · rintro ⟨hnew, hnod, hrest⟩
    exact ⟨⟨fun b hb => (hrest b hb).1, hnod⟩, hnew, fun b hb => (hrest b hb).2⟩

variable [DecidableEq K]

theorem lookup_insert_ite (k k' : K) (v : V) (t : AList fun _ : K => V) :
    (t.insert k v).lookup k' = if k' = k then some v else t.lookup k' := by
  split_ifs with h
  · rw [h, lookup_insert]
  · exact lookup_insert_ne h

@[simp] theorem lookup_retain (f : V → Option V) (t : AList fun _ : K => V) (k : K) :
    (t.retain f).lookup k = (t.lookup k).bind f := by
  apply Option.ext
  intro v
  change v ∈ (t.retain f).lookup k ↔ v ∈ (t.lookup k).bind f
  rw [mem_lookup_iff, Option.mem_bind_iff]
  constructor
  · intro h
    obtain ⟨e, he, hv⟩ := mem_filterMap.1 h
    obtain ⟨w, hw, heq⟩ := Option.map_eq_some_iff.1 hv
    cases heq
    exact ⟨e.2, mem_lookup_iff.2 he, hw⟩
  · rintro ⟨w, hw, hv⟩
    refine mem_filterMap.2 ⟨⟨k, w⟩, mem_lookup_iff.1 hw, ?_⟩
    exact Option.map_eq_some_iff.2 ⟨v, hv, rfl⟩

@[simp] theorem lookup_retainKeys (p : K → Bool) (t : AList fun _ : K => V) (k : K) :
    (t.retainKeys p).lookup k = if p k then t.lookup k else none := by
  apply Option.ext
  intro v
  change v ∈ (t.retainKeys p).lookup k ↔ _
  rw [mem_lookup_iff, retainKeys, mem_filter, ← mem_lookup_iff]
  split_ifs with hp <;> simp [hp]

@[simp] theorem mem_retainKeys (p : K → Bool) (t : AList fun _ : K => V) (k : K) :
    k ∈ t.retainKeys p ↔ k ∈ t ∧ p k = true := by
  rw [← lookup_isSome, ← lookup_isSome, lookup_retainKeys]
  split_ifs with hp <;> simp [hp]

theorem length_insert (k : K) (v : V) (t : AList fun _ : K => V) :
    (t.insert k v).entries.length = (t.keys.erase k).length + 1 := by
  rw [← length_keys, keys_insert, length_cons]

theorem length_insert_le (k : K) (v : V) (t : AList fun _ : K => V) :
    (t.insert k v).entries.length ≤ t.entries.length + 1 := by
  rw [length_insert, ← length_keys]
  exact Nat.add_le_add_right length_erase_le 1

theorem length_insert_of_mem {k : K} (h : k ∈ t) (v : V) :
    (t.insert k v).entries.length = t.entries.length := by
  rw [length_insert, ← length_keys, length_erase_of_mem (mem_keys.1 h)]
  exact Nat.sub_add_cancel (length_pos_of_mem (mem_keys.1 h))

theorem length_erase_le (k : K) (t : AList fun _ : K => V) :
    (t.erase k).entries.length ≤ t.entries.length := by
  rw [← length_keys, ← length_keys, keys_erase]
  exact List.length_erase_le

theorem length_erase_of_mem {k : K} (h : k ∈ t) :
    (t.erase k).entries.length + 1 = t.entries.length := by
  rw [← length_keys, ← length_keys, keys_erase]
  exact length_erase_add_one (mem_keys.1 h)

/-- A pass that drops and rewrites nothing. -/
theorem retain_eq_self {f : V → Option V}
    (h : ∀ k v, t.lookup k = some v → f v = some v) : t.retain f = t := by
  apply ext
  have hkept : ∀ e ∈ t.entries, retainEntry f e = some e := by
    intro e he
    rw [retainEntry, h e.1 e.2 (mem_lookup_iff.2 he), Option.map_some]
  exact (filterMap_congr hkept).trans filterMap_some

/-- The entries of a list, put in one after the other. -/
def insertAll (l : List (Σ _ : K, V)) (t : AList fun _ : K => V) : AList fun _ : K => V :=
  l.foldl (fun t e => t.insert e.1 e.2) t

theorem insertAll_cons (e : Σ _ : K, V) (l : List (Σ _ : K, V)) (t : AList fun _ : K => V) :
    insertAll (e :: l) t = insertAll l (t.insert e.1 e.2) := rfl

theorem lookup_insertAll {l : List (Σ _ : K, V)} (h : l.NodupKeys) (t : AList fun _ : K => V)
    (k : K) (v : V) : (insertAll l t).lookup k = some v ↔
      ⟨k, v⟩ ∈ l ∨ k ∉ l.keys ∧ t.lookup k = some v := by
  induction l generalizing t with
  | nil => simp [insertAll]
  | cons e l ih =>
    obtain ⟨hnew, h⟩ := nodupKeys_cons.1 h
    rw [insertAll_cons, ih h]
    by_cases hk : k = e.1
    · subst hk
      have hnot : ⟨e.1, v⟩ ∉ l := by
        intro hmem
        exact hnew (List.mem_keys.2 ⟨v, hmem⟩)
      simp only [hnot, hnew, lookup_insert, mem_cons, keys_cons, not_true,
        false_and, or_false, false_or, not_false_iff, true_and, Option.some.injEq]
      constructor
      · rintro rfl
        rfl
      · intro heq
        rw [← heq]
    · have hne : (⟨k, v⟩ : Σ _ : K, V) ≠ e := fun heq => hk (congrArg Sigma.fst heq)
      simp [lookup_insert_ne hk, hk, hne]

/-- A table filled from a list of things with keys of their own. -/
theorem lookup_insertAll_map {value : α → V} (hnod : (l.map key).Nodup) (k : K) (v : V) :
    (insertAll (l.map fun a => (⟨key a, value a⟩ : Σ _ : K, V)) ∅).lookup k = some v ↔
      ∃ a ∈ l, key a = k ∧ value a = v := by
  have hkeys : (l.map fun a => (⟨key a, value a⟩ : Σ _ : K, V)).NodupKeys := by
    rw [NodupKeys, List.keys, map_map]
    exact hnod
  rw [lookup_insertAll hkeys]
  simp only [lookup_empty, and_false, or_false, mem_map, Sigma.mk.injEq, heq_eq_eq, reduceCtorEq]

theorem mem_insertAll_map {v : α → V} (hnod : (l.map key).Nodup) (k : K) :
    k ∈ insertAll (l.map fun a => (⟨key a, v a⟩ : Σ _ : K, V)) ∅ ↔ ∃ a ∈ l, key a = k := by
  rw [← lookup_isSome, Option.isSome_iff_exists]
  simp only [lookup_insertAll_map hnod]
  constructor
  · rintro ⟨_, a, ha, hkey, -⟩
    exact ⟨a, ha, hkey⟩
  · rintro ⟨a, ha, hkey⟩
    exact ⟨_, a, ha, hkey, rfl⟩

theorem length_insertAll_le (l : List (Σ _ : K, V)) (t : AList fun _ : K => V) :
    (insertAll l t).entries.length ≤ t.entries.length + l.length := by
  induction l generalizing t with
  | nil => exact le_rfl
  | cons e l ih =>
    have hrest := ih (t.insert e.1 e.2)
    have hhead := length_insert_le e.1 e.2 t
    rw [insertAll_cons, length_cons]
    omega

end AList
