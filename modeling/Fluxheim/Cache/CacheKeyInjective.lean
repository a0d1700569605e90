import Fluxheim.Cache.CacheKey

/-!
# Cache keys are unambiguous

A key is a mark and the list of its components, so that everything follows from
`Components.encode_inj`: equal keys have equal parts, keys of different kinds and slices differ, and
the extractor finds what was put in.
-/

namespace Fluxheim.Cache

open Ascii Components List Option

variable {normalizeHost : Text → Option Text} {config : CacheConfig}

/-- The component of a part of the request. -/
def keyPartComponent (normalizeHost : Text → Option Text) (config : CacheConfig)
    (request : CacheRequest) (part : CacheKeyPart) : Option Component :=
  (keyPartValue normalizeHost config request part).map fun value => (part.label, value)

/-- The component of the namespace. -/
def namespaceComponent (config : CacheConfig) : List Component :=
  config.keyNamespace.toList.map fun name => (ascii "namespace", name.1)

/-- The components of a request. -/
def requestComponents (normalizeHost : Text → Option Text) (config : CacheConfig)
    (request : CacheRequest) : List Component :=
  namespaceComponent config ++
    config.keyParts.filterMap (keyPartComponent normalizeHost config request)

variable (req : CacheRequest)

theorem foldl_keyParts (ps : List CacheKeyPart) (key : Bytes) :
    ps.foldl (appendKeyPart normalizeHost config req) key =
      key ++ encode (ps.filterMap (keyPartComponent normalizeHost config req)) := by
  induction ps generalizing key with
  | nil => simp
  | cons part ps ih =>
    rw [foldl_cons, ih, filterMap_cons, keyPartComponent, appendKeyPart]
    cases keyPartValue normalizeHost config req part with
    | none => rfl
    | some v => simp [appendCacheKeyComponent]

theorem cacheKeyParts_eq (mark : Bytes) :
    cacheKeyParts normalizeHost config req mark =
      mark ++ encode (requestComponents normalizeHost config req) := by
  rw [cacheKeyParts, foldl_keyParts, requestComponents, namespaceComponent]
  cases config.keyNamespace with
  | none => simp
  | some name => simp [appendCacheKeyComponent]

/-- The components of a request for a local file. -/
def staticComponents (normalizeHost : Text → Option Text) (config : CacheConfig)
    (request : StaticCacheRequest) : List Component :=
  requestComponents normalizeHost config request.toCacheRequest ++
    [(ascii "file", request.fileIdentity.1)]

variable {key key' : Bytes}

theorem imageCacheKey_eq {req : CacheRequest}
    (h : imageCacheKey normalizeHost config req = some key) :
    key = IMAGE_KEY_MAGIC ++ encode (requestComponents normalizeHost config req) := by
  rw [imageCacheKey] at h
  split_ifs at h
  rw [← some.inj h, cacheKeyParts_eq]

theorem staticCacheKey_eq {req : StaticCacheRequest}
    (h : staticCacheKey normalizeHost config req = some key) :
    key = STATIC_KEY_MAGIC ++ encode (staticComponents normalizeHost config req) := by
  rw [staticCacheKey] at h
  split_ifs at h
  rw [← some.inj h, cacheKeyParts_eq, staticComponents]
  simp [appendCacheKeyComponent]

theorem labelled_part (part : CacheKeyPart) : 58 ∉ part.label := by
  cases part <;> decide

theorem labelled_requestComponents :
    ∀ c ∈ requestComponents normalizeHost config req, Labelled c := by
  intro c hc
  rcases mem_append.1 hc with hc | hc
  · obtain ⟨name, -, rfl⟩ := mem_map.1 hc
    show 58 ∉ ascii "namespace"
    decide
  · obtain ⟨part, -, hpart⟩ := mem_filterMap.1 hc
    obtain ⟨v, -, rfl⟩ := map_eq_some_iff.1 hpart
    exact labelled_part part

theorem labelled_staticComponents (req : StaticCacheRequest) :
    ∀ c ∈ staticComponents normalizeHost config req, Labelled c := by
  intro c hc
  rcases mem_append.1 hc with hc | hc
  · exact labelled_requestComponents _ c hc
  · rw [mem_singleton.1 hc]
    show 58 ∉ ascii "file"
    decide

theorem isSome_keyPartValue (normalizeHost : Text → Option Text) (config : CacheConfig)
    (r r' : CacheRequest) (part : CacheKeyPart) :
    (keyPartValue normalizeHost config r part).isSome =
      (keyPartValue normalizeHost config r' part).isSome := by
  cases part with
  | query => by_cases h : config.includeQuery <;> simp [keyPartValue, h]
  | _ => rfl

/-- Which components there are depends on the configuration only. -/
theorem length_requestComponents (r r' : CacheRequest) :
    (requestComponents normalizeHost config r).length =
      (requestComponents normalizeHost config r').length := by
  rw [requestComponents, requestComponents, length_append, length_append]
  congr 1
  induction config.keyParts with
  | nil => rfl
  | cons part ps ih =>
    have hsome := isSome_keyPartValue normalizeHost config r r' part
    rw [filterMap_cons, filterMap_cons, keyPartComponent, keyPartComponent]
    cases hr : keyPartValue normalizeHost config r part with
    | none =>
      rw [hr, isSome_none, eq_comm, isSome_eq_false_iff, isNone_iff_eq_none]
        at hsome
      rw [hsome]
      exact ih
    | some v =>
      rw [hr, isSome_some, eq_comm, isSome_iff_exists] at hsome
      obtain ⟨v', hv'⟩ := hsome
      rw [hv']
      exact congrArg Nat.succ ih

/-- Equal components have equal parts. -/
theorem keyPartValue_eq_of_components {r r' : CacheRequest}
    (h : requestComponents normalizeHost config r = requestComponents normalizeHost config r') :
    ∀ part ∈ config.keyParts,
      keyPartValue normalizeHost config r part = keyPartValue normalizeHost config r' part := by
  have hpart := append_cancel_left h
  generalize config.keyParts = ps at hpart ⊢
  induction ps with
  | nil => simp
  | cons part ps ih =>
    have hsome := isSome_keyPartValue normalizeHost config r r' part
    rw [filterMap_cons, filterMap_cons, keyPartComponent, keyPartComponent] at hpart
    cases hr : keyPartValue normalizeHost config r part with
    | none =>
      rw [hr, isSome_none, eq_comm, isSome_eq_false_iff, isNone_iff_eq_none]
        at hsome
      rw [hr, hsome] at hpart
      exact forall_mem_cons.2 ⟨by rw [hr, hsome], ih hpart⟩
    | some v =>
      rw [hr, isSome_some, eq_comm, isSome_iff_exists] at hsome
      obtain ⟨v', hv'⟩ := hsome
      rw [hr, hv'] at hpart
      obtain ⟨hhead, htail⟩ := cons.inj hpart
      exact forall_mem_cons.2 ⟨by rw [hr, hv', (Prod.mk.inj hhead).2], ih htail⟩

/-- A component that can stand in a key. -/
structure Readable (c : Component) : Prop where
  labelled : Labelled c
  utf8 : utf8Valid c.2 = true
  length_le : c.2.length ≤ usizeMax

theorem readComponent_append {c : Component} (h : Readable c) (rest : Bytes) :
    readComponent (component c ++ rest) = some (c, rest) := by
  have hby : component c ++ rest =
      c.1 ++ 58 :: (decimal c.2.length ++ 58 :: (c.2 ++ 59 :: rest)) := by
    simp [component]
  have htake : (c.2 ++ 59 :: rest).take c.2.length = c.2 := take_left
  have hdrop : (c.2 ++ 59 :: rest).drop c.2.length = 59 :: rest := drop_left
  have hlen : ¬ (c.2 ++ 59 :: rest).length < c.2.length := by
    rw [length_append]
    omega
  rw [readComponent, hby, Search.splitOnce_eq_some_iff.2 ⟨rfl, h.labelled⟩]
  dsimp only [bind_eq_bind, bind_some]
  rw [Search.splitOnce_eq_some_iff.2 ⟨rfl, colon_not_mem_decimal _⟩]
  dsimp only [bind_some]
  rw [parseUnsigned_decimal h.length_le]
  dsimp only [bind_some]
  rw [if_neg hlen, htake, h.utf8, hdrop]
  rfl

/-- The extractor goes through the components in their order. -/
theorem findComponent_encode {cs : List Component} (name : Bytes) (h : ∀ c ∈ cs, Readable c) :
    findComponent name (encode cs) = (cs.find? fun c => c.1 = name).map (·.2) := by
  induction cs with
  | nil =>
    rw [findComponent]
    rfl
  | cons c cs ih =>
    rw [forall_mem_cons] at h
    have hne : component c ++ encode cs ≠ [] := fun hnil =>
      component_ne_nil c (append_eq_nil_iff.1 hnil).1
    rw [encode_cons, findComponent, if_neg hne]
    split
    · rename_i hread
      rw [readComponent_append h.1] at hread
      cases hread
    · rename_i c' after hread
      rw [readComponent_append h.1] at hread
      obtain ⟨rfl, rfl⟩ := Prod.mk.inj (some.inj hread)
      by_cases hname : c.1 = name
      · rw [if_pos hname, find?_cons_of_pos (by simpa using hname)]
        rfl
      · rw [if_neg hname, ih h.2, find?_cons_of_neg (by simpa using hname)]

theorem length_le_encode {cs : List Component} {c : Component} (h : c ∈ cs) :
    c.2.length ≤ (encode cs).length := by
  induction cs with
  | nil => cases h
  | cons d cs ih =>
    rw [encode_cons, length_append]
    rcases mem_cons.1 h with rfl | h
    · simp only [component, length_append, length_cons]
      omega
    · exact (ih h).trans (Nat.le_add_left _ _)

theorem utf8_requestComponents :
    ∀ c ∈ requestComponents normalizeHost config req, utf8Valid c.2 = true := by
  have htext : ∀ o : Option Text, utf8Valid ((o.map (·.1)).getD []) = true := by
    intro o
    cases o with
    | none => rfl
    | some t => exact t.2
  intro c hc
  rcases mem_append.1 hc with hc | hc
  · obtain ⟨name, -, rfl⟩ := mem_map.1 hc
    exact name.2
  · obtain ⟨part, -, hpart⟩ := mem_filterMap.1 hc
    obtain ⟨v, hv, rfl⟩ := map_eq_some_iff.1 hpart
    cases part with
    | method => exact some.inj hv ▸ req.method.2
    | host => exact some.inj hv ▸ htext _
    | path => exact some.inj hv ▸ req.path.2
    | query =>
      rw [keyPartValue] at hv
      split_ifs at hv
      exact some.inj hv ▸ htext _

theorem range_component_inj {s s' : CacheRangeRequest} (h : s.component = s'.component) :
    s = s' := by
  have hdash : ∀ n : ℕ, 45 ∉ decimal n := fun n hmem => by
    have := all_eq_true.1 (decimal_all_isDigit n) 45 hmem
    revert this
    decide
  obtain ⟨hstart, hstop⟩ := append_cons_inj (hdash _) (hdash _) (append_cancel_left h)
  have hstart' := congrArg decimalValue hstart
  have hstop' := congrArg decimalValue hstop
  rw [decimalValue_decimal, decimalValue_decimal] at hstart' hstop'
  obtain ⟨start, stop⟩ := s
  obtain ⟨start', stop'⟩ := s'
  obtain rfl := Fin.ext hstart'
  obtain rfl := Fin.ext hstop'
  rfl

/-- The component of a slice. -/
def sliceComponent (s : CacheRangeRequest) : Component := (ascii "slice", s.component)

theorem labelled_slice (s : CacheRangeRequest) : Labelled (sliceComponent s) := by
  show 58 ∉ ascii "slice"
  decide

theorem nativeSliceCacheKey_eq (mark : Bytes) (cs : List Component) (s : CacheRangeRequest) :
    nativeSliceCacheKey (mark ++ encode cs) s = mark ++ encode (cs ++ [sliceComponent s]) := by
  simp [nativeSliceCacheKey, cacheKeyWithComponent, appendCacheKeyComponent, sliceComponent]

/-- Marks of images and of files differ. -/
theorem image_ne_static (x y : Bytes) : IMAGE_KEY_MAGIC ++ x ≠ STATIC_KEY_MAGIC ++ y := by
  intro h
  have htake := congrArg (take 10) h
  rw [take_append_of_le_length (by decide), take_append_of_le_length (by decide)] at htake
  revert htake
  decide

/-- The keys of a configuration. -/
def IsKey (normalizeHost : Text → Option Text) (config : CacheConfig) (key : Bytes) : Prop :=
  (∃ request, imageCacheKey normalizeHost config request = some key) ∨
    ∃ request, staticCacheKey normalizeHost config request = some key

/-- A key of either kind is a mark and components, as many as the configuration has of the kind. -/
theorem IsKey.components (h : IsKey normalizeHost config key)
    (h' : IsKey normalizeHost config key') :
    (∃ mark cs cs', key = mark ++ encode cs ∧ key' = mark ++ encode cs' ∧
      (∀ c ∈ cs, Labelled c) ∧ (∀ c ∈ cs', Labelled c) ∧ cs.length = cs'.length) ∨
    ∃ cs cs', key = IMAGE_KEY_MAGIC ++ encode cs ∧ key' = STATIC_KEY_MAGIC ++ encode cs' ∨
      key = STATIC_KEY_MAGIC ++ encode cs ∧ key' = IMAGE_KEY_MAGIC ++ encode cs' := by
  rcases h with ⟨r, hr⟩ | ⟨r, hr⟩ <;> rcases h' with ⟨r', hr'⟩ | ⟨r', hr'⟩
  · exact .inl ⟨_, _, _, imageCacheKey_eq hr, imageCacheKey_eq hr', labelled_requestComponents r,
      labelled_requestComponents r', length_requestComponents r r'⟩
  · exact .inr ⟨_, _, .inl ⟨imageCacheKey_eq hr, staticCacheKey_eq hr'⟩⟩
  · exact .inr ⟨_, _, .inr ⟨staticCacheKey_eq hr, imageCacheKey_eq hr'⟩⟩
  · refine .inl ⟨_, _, _, staticCacheKey_eq hr, staticCacheKey_eq hr', labelled_staticComponents r,
      labelled_staticComponents r', ?_⟩
    rw [staticComponents, staticComponents, length_append, length_append, length_requestComponents]
    rfl

/-- A slice of one object is not another object, nor another slice. -/
theorem IsKey.slice_ne (h : IsKey normalizeHost config key)
    (h' : IsKey normalizeHost config key') (s s' : CacheRangeRequest) :
    nativeSliceCacheKey key s ≠ key' ∧
      (nativeSliceCacheKey key s = nativeSliceCacheKey key' s' → s = s') := by
  rcases h.components h' with
    ⟨mark, cs, cs', rfl, rfl, hcs, hcs', hlen⟩ | ⟨cs, cs', ⟨rfl, rfl⟩ | ⟨rfl, rfl⟩⟩
  · have hslice : ∀ {ds : List Component} {t : CacheRangeRequest}, (∀ c ∈ ds, Labelled c) →
        ∀ c ∈ ds ++ [sliceComponent t], Labelled c := by
      intro ds t hds c hc
      rcases mem_append.1 hc with hc | hc
      · exact hds c hc
      · exact mem_singleton.1 hc ▸ labelled_slice t
    rw [nativeSliceCacheKey_eq, nativeSliceCacheKey_eq]
    constructor
    · intro heq
      have hlist := encode_inj (hslice hcs) hcs' (append_cancel_left heq)
      have := congrArg length hlist
      rw [length_append, length_singleton] at this
      omega
    · intro heq
      have hlist := encode_inj (hslice hcs) (hslice hcs') (append_cancel_left heq)
      obtain ⟨-, hlast⟩ := append_inj hlist hlen
      exact range_component_inj (Prod.mk.inj (cons.inj hlast).1).2
  · exact ⟨image_ne_static _ _, fun heq => absurd heq (image_ne_static _ _)⟩
  · exact ⟨(image_ne_static _ _).symm, fun heq => absurd heq (image_ne_static _ _).symm⟩

/-- **Under one configuration: image keys are equal only if all their configured parts are; static
keys, if all these and the file are; an image key is no static key; a key with a slice is no key
without one, and none with another slice; and the extractor gives, for every image key and label,
the value of the first component with the label, or nothing if there is none.** -/
theorem cache_keys_unambiguous (normalizeHost : Text → Option Text) (config : CacheConfig) :
    (∀ r r' key, imageCacheKey normalizeHost config r = some key →
      imageCacheKey normalizeHost config r' = some key →
      ∀ part ∈ config.keyParts,
        keyPartValue normalizeHost config r part = keyPartValue normalizeHost config r' part) ∧
    (∀ r r' key, staticCacheKey normalizeHost config r = some key →
      staticCacheKey normalizeHost config r' = some key →
      r.fileIdentity = r'.fileIdentity ∧
      ∀ part ∈ config.keyParts,
        keyPartValue normalizeHost config r.toCacheRequest part =
          keyPartValue normalizeHost config r'.toCacheRequest part) ∧
    (∀ r r' key key', imageCacheKey normalizeHost config r = some key →
      staticCacheKey normalizeHost config r' = some key' → key ≠ key') ∧
    (∀ key key' s s', IsKey normalizeHost config key → IsKey normalizeHost config key' →
      nativeSliceCacheKey key s ≠ key' ∧
      (s ≠ s' → nativeSliceCacheKey key s ≠ nativeSliceCacheKey key' s')) ∧
    (∀ r key name, imageCacheKey normalizeHost config r = some key → key.length ≤ usizeMax →
      cachePrimaryComponent key name =
        ((requestComponents normalizeHost config r).find? fun c => c.1 = name).map (·.2)) := by
  refine ⟨fun r r' key h h' => ?_, fun r r' key h h' => ?_, fun r r' key key' h h' => ?_,
    fun key key' s s' h h' => ?_, fun r key name h hlen => ?_⟩
  · have heq := (imageCacheKey_eq h).symm.trans (imageCacheKey_eq h')
    exact keyPartValue_eq_of_components (encode_inj (labelled_requestComponents r)
      (labelled_requestComponents r') (append_cancel_left heq))
  · have heq := (staticCacheKey_eq h).symm.trans (staticCacheKey_eq h')
    have hlist := encode_inj (labelled_staticComponents r) (labelled_staticComponents r')
      (append_cancel_left heq)
    obtain ⟨hpart, hfile⟩ := append_inj hlist (length_requestComponents _ _)
    exact ⟨Subtype.ext (Prod.mk.inj (cons.inj hfile).1).2,
      keyPartValue_eq_of_components hpart⟩
  · rw [imageCacheKey_eq h, staticCacheKey_eq h']
    exact image_ne_static _ _
  · exact ⟨(h.slice_ne h' s s').1, fun hne heq => hne ((h.slice_ne h' s s').2 heq)⟩
  · have hkey := imageCacheKey_eq h
    rw [hkey, length_append] at hlen
    rw [hkey]
    refine findComponent_encode name fun c hc => ⟨labelled_requestComponents r c hc,
      utf8_requestComponents r c hc, ?_⟩
    have hv := length_le_encode hc
    omega

/-- A cache of `png` files by path and query. -/
def pngConfig : CacheConfig where
  enabled := true
  memoryEnabled := true
  diskEnabled := false
  localStatic := false
  methods := [ascii "GET"]
  imageExtensions := [ascii "png"]
  keyNamespace := none
  keyParts := [.path, .query]
  includeQuery := true

/-- A request for one file. -/
def pngRequest (query : Option Text) : CacheRequest where
  method := ⟨ascii "GET", by decide⟩
  host := none
  path := ⟨ascii "/a.png", by decide⟩
  query := query

theorem cache_keys_unambiguous_png :
    keyPartValue (fun _ => none) pngConfig (pngRequest none) .query =
        keyPartValue (fun _ => none) pngConfig (pngRequest (some ⟨[], by decide⟩)) .query ∧
      cachePrimaryComponent (ascii "fluxheim-image-v1;path:6:/a.png;query:0:;") (ascii "path") =
        some (ascii "/a.png") := by
  have hkey : imageCacheKey (fun _ => none) pngConfig (pngRequest none) =
      some (ascii "fluxheim-image-v1;path:6:/a.png;query:0:;") := by decide +kernel
  have hkey' : imageCacheKey (fun _ => none) pngConfig (pngRequest (some ⟨[], by decide⟩)) =
      some (ascii "fluxheim-image-v1;path:6:/a.png;query:0:;") := by decide +kernel
  have hall := cache_keys_unambiguous (fun _ => none) pngConfig
  refine ⟨hall.1 _ _ _ hkey hkey' .query (by decide), ?_⟩
  decide +kernel

end Fluxheim.Cache
