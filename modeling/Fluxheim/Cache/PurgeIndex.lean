import Mathlib.Data.List.AList
import Fluxheim.Lib.TextLines

/-!
# The purge index of a cache tier

Every tier of the cache keeps, beside its objects, a record of what a purge may ask for: the virtual
host or route an object belongs to, its path and its tags.
-/

namespace Fluxheim.Cache

open Ascii List AList

/-- What a purge may ask for of one object. -/
structure CachePurgeIndexEntry where
  combinedKey : Text
  primaryKey : Text
  userTag : Text
  path : Option Text
  cacheTags : List Bytes
  deriving DecidableEq

/-- The records and the queue of their keys, as they are stored. -/
structure CachePurgeIndexInner where
  entries : AList fun _ : Text => CachePurgeIndexEntry
  order : List Text

namespace CachePurgeIndexInner

/-- A key that is already there keeps its place in the queue. -/
def insertWithPathAndTags (inner : CachePurgeIndexInner) (entry : CachePurgeIndexEntry) :
    CachePurgeIndexInner where
  entries := inner.entries.insert entry.combinedKey entry
  order :=
    if entry.combinedKey ∈ inner.entries then inner.order
    else inner.order ++ [entry.combinedKey]

/-- A record and its place in the queue are removed. -/
def removeCombined (inner : CachePurgeIndexInner) (combinedKey : Text) : CachePurgeIndexInner where
  entries := inner.entries.erase combinedKey
  order :=
    if combinedKey ∈ inner.entries then inner.order.filter (· ≠ combinedKey) else inner.order

/-- The queue holds the keys of the table, each of them once, and every record is under its key. -/
structure Listed (inner : CachePurgeIndexInner) : Prop where
  nodup : inner.order.Nodup
  mem_order : ∀ key, key ∈ inner.order ↔ key ∈ inner.entries
  combinedKey_eq : ∀ key entry, inner.entries.lookup key = some entry → entry.combinedKey = key

variable {inner : CachePurgeIndexInner}

theorem Listed.insertWithPathAndTags (h : inner.Listed) (entry : CachePurgeIndexEntry) :
    (inner.insertWithPathAndTags entry).Listed where
  nodup := by
    rw [CachePurgeIndexInner.insertWithPathAndTags]
    split_ifs with hmem
    · exact h.nodup
    · refine Nodup.append h.nodup (nodup_singleton _) ?_
      rw [disjoint_singleton, h.mem_order]
      exact hmem
  mem_order := by
    intro key
    simp only [CachePurgeIndexInner.insertWithPathAndTags, mem_insert]
    split_ifs with hmem
    · rw [h.mem_order]
      exact ⟨Or.inr, fun h => h.elim (fun h => h ▸ hmem) id⟩
    · rw [mem_append, mem_singleton, h.mem_order, or_comm]
  combinedKey_eq := by
    intro key found hfound
    by_cases hkey : key = entry.combinedKey
    · subst hkey
      rw [CachePurgeIndexInner.insertWithPathAndTags, lookup_insert] at hfound
      rw [← Option.some.inj hfound]
    · rw [CachePurgeIndexInner.insertWithPathAndTags, lookup_insert_ne hkey] at hfound
      exact h.combinedKey_eq key found hfound

theorem Listed.removeCombined (h : inner.Listed) (combinedKey : Text) :
    (inner.removeCombined combinedKey).Listed where
  nodup := by
    rw [CachePurgeIndexInner.removeCombined]
    split_ifs
    · exact h.nodup.filter _
    · exact h.nodup
  mem_order := by
    intro key
    simp only [CachePurgeIndexInner.removeCombined, mem_erase]
    split_ifs with hmem
    · simp only [mem_filter, h.mem_order, decide_eq_true_eq]
      exact and_comm
    · rw [h.mem_order]
      exact ⟨fun h => ⟨fun heq => hmem (heq ▸ h), h⟩, And.right⟩
  combinedKey_eq := by
    intro key found hfound
    by_cases hkey : key = combinedKey
    · subst hkey
      rw [CachePurgeIndexInner.removeCombined] at hfound
      exact absurd hfound (by simp)
    · rw [CachePurgeIndexInner.removeCombined, lookup_erase_ne hkey] at hfound
      exact h.combinedKey_eq key found hfound

end CachePurgeIndexInner

/-- The records, and the queue in which each of their keys stands once. -/
structure CachePurgeIndex extends CachePurgeIndexInner where
  listed : toCachePurgeIndexInner.Listed

namespace CachePurgeIndex

/-- An index without records. -/
def empty : CachePurgeIndex := ⟨⟨∅, []⟩, nodup_nil, by simp, by simp⟩

instance : Membership Text CachePurgeIndex := ⟨fun index key => key ∈ index.entries⟩

instance (key : Text) (index : CachePurgeIndex) : Decidable (key ∈ index) :=
  inferInstanceAs (Decidable (key ∈ index.entries))

/-- `insert_with_path_and_tags`. -/
def insertWithPathAndTags (index : CachePurgeIndex) (entry : CachePurgeIndexEntry) :
    CachePurgeIndex :=
  ⟨index.toCachePurgeIndexInner.insertWithPathAndTags entry,
    index.listed.insertWithPathAndTags entry⟩

/-- `remove_combined`. -/
def removeCombined (index : CachePurgeIndex) (combinedKey : Text) : CachePurgeIndex :=
  ⟨index.toCachePurgeIndexInner.removeCombined combinedKey, index.listed.removeCombined combinedKey⟩

@[simp] theorem not_mem_empty (key : Text) : key ∉ empty := notMem_empty key

variable {index : CachePurgeIndex}

@[simp] theorem mem_insertWithPathAndTags {e : CachePurgeIndexEntry} {key : Text} :
    key ∈ index.insertWithPathAndTags e ↔ key = e.combinedKey ∨ key ∈ index :=
  mem_insert _

@[simp] theorem mem_removeCombined {ckey key : Text} :
    key ∈ index.removeCombined ckey ↔ key ≠ ckey ∧ key ∈ index :=
  mem_erase

/-- The parts of a pattern one after the other; only the first can be bound to the start. -/
def wildcardLoop (anchored : Bool) : List Bytes → Bytes → Option Bytes
  | [], rest => some rest
  | part :: parts, rest =>
    if anchored then
      if part <+: rest then wildcardLoop false parts (rest.drop part.length) else none
    else
      match Search.findSub part rest with
      | none => none
      | some i => wildcardLoop false parts (rest.drop (i + part.length))

/-- A path against a pattern with stars. -/
def cachePathWildcardMatches (pattern path : Bytes) : Bool :=
  if pattern = ascii "*" then true
  else
    let anchoredStart := pattern.head? ≠ some 42
    let anchoredEnd := pattern.getLast? ≠ some 42
    match wildcardLoop anchoredStart ((pattern.splitOn 42).filter (· ≠ [])) path with
    | none => false
    | some rest => !anchoredEnd || pattern.getLast? = some 42 || rest.isEmpty

example : cachePathWildcardMatches (ascii "/media/*/thumb.png") (ascii "/media/a/thumb.png") =
    true ∧
    cachePathWildcardMatches (ascii "/media/*/thumb.png") (ascii "/media/a/full.png") = false := by
  decide +kernel

/-- What an indexed purge asks for, within a virtual host or a route. -/
inductive PurgeScope where
  | userTag
  | pathPrefix (path : Bytes)
  | pathExact (path : Bytes)
  | pathPattern (pattern : Bytes)
  | cacheTag (tag : Bytes)

namespace PurgeScope

/-- The text that comes with a scope; nothing is found for an empty one. -/
def argument : PurgeScope → Option Bytes
  | userTag => none
  | pathPrefix path => some path
  | pathExact path => some path
  | pathPattern pattern => some pattern
  | cacheTag tag => some tag

/-- The test that an entry of the virtual host or route is put to. -/
def selects (entry : CachePurgeIndexEntry) : PurgeScope → Bool
  | userTag => true
  | pathPrefix path => entry.path.any fun p => decide (path <+: p.1)
  | pathExact path => entry.path.any fun p => p.1 = path
  | pathPattern pattern => entry.path.any fun p => cachePathWildcardMatches pattern p.1
  | cacheTag tag => entry.cacheTags.any (· = tag)

end PurgeScope

/-- The first records that are covered. -/
def entriesMatching (index : CachePurgeIndex) (limit : ℕ) (covers : CachePurgeIndexEntry → Bool) :
    List CachePurgeIndexEntry :=
  if limit = 0 then []
  else ((index.order.filterMap index.entries.lookup).filter covers).take limit

/-- The functions `entries_for_user_tag` and `entries_for_user_tag_…`. -/
def entriesFor (index : CachePurgeIndex) (userTag : Text) (scope : PurgeScope) (limit : ℕ) :
    List CachePurgeIndexEntry :=
  if userTag.1 = [] ∨ scope.argument = some [] ∨ limit = 0 then []
  else index.entriesMatching limit fun entry => entry.userTag = userTag && scope.selects entry

/-- The entries that a purge is meant for. -/
def Covered (userTag : Text) (scope : PurgeScope) (entry : CachePurgeIndexEntry) : Prop :=
  userTag.1 ≠ [] ∧ scope.argument ≠ some [] ∧ entry.userTag = userTag ∧ scope.selects entry = true

instance (userTag : Text) (scope : PurgeScope) (entry : CachePurgeIndexEntry) :
    Decidable (Covered userTag scope entry) :=
  inferInstanceAs (Decidable (_ ∧ _ ∧ _ ∧ _))

/-- With every key once in the queue, a search that is not cut short finds every entry. -/
theorem filterMap_order_perm (index : CachePurgeIndex) :
    (index.order.filterMap index.entries.lookup).Perm (index.entries.entries.map (·.2)) := by
  have hkeys : index.order.Perm index.entries.keys :=
    (perm_ext_iff_of_nodup index.listed.nodup index.entries.keys_nodup).2 fun key =>
      (index.listed.mem_order key).trans mem_keys
  refine (hkeys.filterMap _).trans (Perm.of_eq ?_)
  rw [AList.keys, List.keys, filterMap_map, ← filterMap_eq_map]
  exact filterMap_congr fun e hentry => mem_lookup_iff.2 hentry

theorem entriesMatching_eq_take (index : CachePurgeIndex) (limit : ℕ)
    (covers : CachePurgeIndexEntry → Bool) : index.entriesMatching limit covers =
      ((index.order.filterMap index.entries.lookup).filter covers).take limit := by
  rw [entriesMatching]
  split_ifs with hzero
  · rw [hzero, take_zero]
  · rfl

/-- An article of the host `h` with the tag `t`. -/
def article : CachePurgeIndexEntry :=
  ⟨⟨ascii "k1", rfl⟩, ⟨ascii "k1", rfl⟩, ⟨ascii "h", rfl⟩, some ⟨ascii "/news/1", rfl⟩, [ascii "t"]⟩

/-- An image of the same host with the same tag. -/
def image : CachePurgeIndexEntry :=
  { article with combinedKey := ⟨ascii "k2", rfl⟩, path := some ⟨ascii "/img/1", rfl⟩ }

/-- Both, an object of another host, and one that was stored twice and removed. -/
def sampleIndex : CachePurgeIndex :=
  let foreign := { article with combinedKey := ⟨ascii "k3", rfl⟩, userTag := ⟨ascii "g", rfl⟩ }
  let removed := { article with combinedKey := ⟨ascii "k4", rfl⟩ }
  [image, removed, foreign, article, removed].foldl insertWithPathAndTags empty
    |>.removeCombined removed.combinedKey

end CachePurgeIndex

end Fluxheim.Cache
