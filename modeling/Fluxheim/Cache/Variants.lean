import Fluxheim.Lib.Table
import Fluxheim.Lib.TextLines

/-!
# The variants of a key

A response with a `Vary` header is one of several for its key, the primary key.  A tier lists, for a
primary key, the request headers that matter and the key of each variant.  Every variant that is
listed is an object of the tier, and the updates keep this.
-/

namespace Fluxheim.Cache

open Ascii

/-- The fields of a variant, and its key. -/
structure NativeMemoryCacheVariant where
  fields : List Text
  key : Text

/-- The variants by primary key. -/
abbrev Variants := AList fun _ : Text => List NativeMemoryCacheVariant

/-- The variants without one key; a list that becomes empty is dropped. -/
def retainVariants (key : Text) (listed : List NativeMemoryCacheVariant) :
    Option (List NativeMemoryCacheVariant) :=
  let rest := listed.filter fun variant => variant.key ≠ key
  if rest = [] then none else some rest

/-- `variants.retain(…)` and `variants.push(…)` on the list of a primary key. -/
def replaceVariant (variants : Variants) (primary : Text) (variant : NativeMemoryCacheVariant) :
    Variants :=
  variants.insert primary
    (((variants.lookup primary).getD []).filter (fun other => other.key ≠ variant.key) ++ [variant])

/-- Every variant that is listed is an object. -/
def Named {V : Type} (objects : AList fun _ : Text => V) (variants : Variants) : Prop :=
  ∀ primary listed, variants.lookup primary = some listed →
    ∀ variant ∈ listed, variant.key ∈ objects

namespace Named

variable {V : Type} {objects other : AList fun _ : Text => V} {variants : Variants}

theorem empty (objects : AList fun _ : Text => V) : Named objects ∅ := fun _ _ hlist => by
  cases hlist

theorem mono (h : Named objects variants) (hsub : ∀ key, key ∈ objects → key ∈ other) :
    Named other variants := fun primary listed hlist variant hvar =>
  hsub _ (h primary listed hlist variant hvar)

/-- An object that goes is taken out of all lists. -/
theorem retain (h : Named objects variants) (key : Text) :
    Named (objects.erase key) (variants.retain (retainVariants key)) := by
  intro primary listed hlist variant hvar
  rw [AList.lookup_retain] at hlist
  obtain ⟨before, hpre, hrest⟩ := Option.bind_eq_some_iff.1 hlist
  simp only [retainVariants] at hrest
  split_ifs at hrest
  cases hrest
  obtain ⟨hmem, hne⟩ := List.mem_filter.1 hvar
  exact AList.mem_erase.2 ⟨of_decide_eq_true hne, h primary before hpre variant hmem⟩

theorem erase (h : Named objects variants) (primary : Text) :
    Named objects (variants.erase primary) := by
  intro p listed hlist
  by_cases hp : p = primary
  · subst hp
    rw [AList.lookup_erase] at hlist
    cases hlist
  · rw [AList.lookup_erase_ne hp] at hlist
    exact h p listed hlist

theorem insert (h : Named objects variants) (primary : Text)
    {listed : List NativeMemoryCacheVariant} (hlist : ∀ variant ∈ listed, variant.key ∈ objects) :
    Named objects (variants.insert primary listed) := by
  intro p found hfound
  by_cases hp : p = primary
  · subst hp
    rw [AList.lookup_insert] at hfound
    cases hfound
    exact hlist
  · rw [AList.lookup_insert_ne hp] at hfound
    exact h p found hfound

variable {variant : NativeMemoryCacheVariant}

/-- The list that a primary key has, if any. -/
theorem getD (h : Named objects variants) (primary : Text)
    (hvar : variant ∈ (variants.lookup primary).getD []) : variant.key ∈ objects := by
  cases hlist : variants.lookup primary with
  | none =>
    rw [hlist] at hvar
    cases hvar
  | some listed =>
    rw [hlist] at hvar
    exact h primary listed hlist variant hvar

theorem push (h : Named objects variants) (primary : Text) (hvar : variant.key ∈ objects) :
    Named objects (variants.insert primary ((variants.lookup primary).getD [] ++ [variant])) := by
  refine h.insert primary fun found hfound => ?_
  rcases List.mem_append.1 hfound with hfound | hfound
  · exact h.getD primary hfound
  · rwa [List.mem_singleton.1 hfound]

theorem replaceVariant (h : Named objects variants) (primary : Text)
    (hvar : variant.key ∈ objects) :
    Named objects (Cache.replaceVariant variants primary variant) := by
  refine h.insert primary fun found hfound => ?_
  rcases List.mem_append.1 hfound with hfound | hfound
  · exact h.getD primary (List.mem_filter.1 hfound).1
  · rwa [List.mem_singleton.1 hfound]

end Named

end Fluxheim.Cache
