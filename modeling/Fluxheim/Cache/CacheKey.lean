import Fluxheim.Http1.Token
import Fluxheim.Lib.Components
import Fluxheim.Lib.TextLines

/-!
# Cache keys

The key of a cached response is a list of labelled components, one for each part of the request that
the configuration names.  Every value comes with its length, so that a separator inside a value
separates nothing.  Host names are normalised by a parameter.
-/

namespace Fluxheim.Cache

open Ascii Components

/-- The parts of a request that a key can have. -/
inductive CacheKeyPart where
  | method
  | host
  | path
  | query
  deriving DecidableEq

/-- What the keys depend on in the configuration of a cache. -/
structure CacheConfig where
  enabled : Bool
  memoryEnabled : Bool
  diskEnabled : Bool
  localStatic : Bool
  methods : List Bytes
  imageExtensions : List Bytes
  keyNamespace : Option Text
  keyParts : List CacheKeyPart
  includeQuery : Bool

/-- What a key is made of. -/
structure CacheRequest where
  method : Text
  host : Option Text
  path : Text
  query : Option Text

/-- A request for a local file. -/
structure StaticCacheRequest extends CacheRequest where
  fileIdentity : Text

variable (config : CacheConfig)

/-- There is a cache at all. -/
def CacheConfig.hasEnabledTier : Bool :=
  config.memoryEnabled || config.diskEnabled

/-- The parts before and after the last occurrence of a byte. -/
def rsplitOnce (a : UInt8) (x : Bytes) : Option (Bytes × Bytes) :=
  (Search.splitOnce a x.reverse).map fun parts => (parts.2.reverse, parts.1.reverse)

/-- The extension of the last segment of a path. -/
def imageExtension (path : Bytes) : Option Bytes :=
  match (path.splitOn 47).getLast? with
  | none => none
  | some fileName =>
    if fileName = [] ∨ fileName = [46] ∨ fileName = [46, 46] then none
    else
      match rsplitOnce 46 fileName with
      | none => none
      | some (stem, extension) => if stem = [] ∨ extension = [] then none else some extension

/-- The extension is one that is cached. -/
def cachedExtension (path : Bytes) : Bool :=
  match imageExtension path with
  | none => false
  | some extension => config.imageExtensions.any fun candidate => eqIgnoreCase candidate extension

/-- A proxied image that is cached. -/
def eligibleImageRequest (request : CacheRequest) : Bool :=
  config.enabled && config.hasEnabledTier && config.methods.contains request.method.1 &&
    cachedExtension config request.path.1

/-- A local image that is cached. -/
def eligibleStaticRequest (request : StaticCacheRequest) : Bool :=
  config.enabled && config.localStatic && config.hasEnabledTier &&
    request.method.1 == ascii "GET" && cachedExtension config request.path.1

/-- A key with one more component. -/
def appendCacheKeyComponent (key : Bytes) (label value : Bytes) : Bytes :=
  key ++ component (label, value)

/-- The same, for a finished key. -/
def cacheKeyWithComponent (primary : Bytes) (label value : Bytes) : Bytes :=
  appendCacheKeyComponent primary label value

def IMAGE_KEY_MAGIC : Bytes := ascii "fluxheim-image-v1;"
def STATIC_KEY_MAGIC : Bytes := ascii "fluxheim-static-v1;"

section

variable (normalizeHost : Text → Option Text)

/-- The label of a part. -/
def CacheKeyPart.label : CacheKeyPart → Bytes
  | .method => ascii "method"
  | .host => ascii "host"
  | .path => ascii "path"
  | .query => ascii "query"

variable (config : CacheConfig) (request : CacheRequest)

/-- The value of a part of the request, if the part is in the key. -/
def keyPartValue : CacheKeyPart → Option Bytes
  | .method => some request.method.1
  | .host => some (((request.host.bind normalizeHost).map (·.1)).getD [])
  | .path => some request.path.1
  | .query =>
    if config.includeQuery then some ((request.query.map (·.1)).getD []) else none

/-- A part of the request goes to the end of the key. -/
def appendKeyPart (key : Bytes) (part : CacheKeyPart) : Bytes :=
  match keyPartValue normalizeHost config request part with
  | none => key
  | some value => appendCacheKeyComponent key part.label value

/-- The components of the namespace and of the parts, after a mark. -/
def cacheKeyParts (mark : Bytes) : Bytes :=
  let key :=
    match config.keyNamespace with
    | none => mark
    | some name => appendCacheKeyComponent mark (ascii "namespace") name.1
  config.keyParts.foldl (appendKeyPart normalizeHost config request) key

/-- The key of a proxied image. -/
def imageCacheKey : Option Bytes :=
  if eligibleImageRequest config request then
    some (cacheKeyParts normalizeHost config request IMAGE_KEY_MAGIC)
  else none

/-- The key of a local image. -/
def staticCacheKey (request : StaticCacheRequest) : Option Bytes :=
  if eligibleStaticRequest config request then
    some (appendCacheKeyComponent
      (cacheKeyParts normalizeHost config request.toCacheRequest STATIC_KEY_MAGIC) (ascii "file")
      request.fileIdentity.1)
  else none

end

/-- A range of bytes. -/
structure CacheRangeRequest where
  start : Fin (2 ^ 64)
  stop : Fin (2 ^ 64)

/-- The range as it stands in a key. -/
def CacheRangeRequest.component (range : CacheRangeRequest) : Bytes :=
  ascii "bytes=" ++ (decimal range.start.1 ++ 45 :: decimal range.stop.1)

/-- The key of a slice of an object. -/
def nativeSliceCacheKey (baseKey : Bytes) (range : CacheRangeRequest) : Bytes :=
  cacheKeyWithComponent baseKey (ascii "slice") range.component

/-- The first component of a key, and what follows it. -/
def readComponent (rest : Bytes) : Option (Component × Bytes) := do
  let (label, afterComponent) ← Search.splitOnce 58 rest
  let (len, afterLen) ← Search.splitOnce 58 afterComponent
  let len ← parseUnsigned usizeMax len
  if afterLen.length < len then none
  else if utf8Valid (afterLen.take len) = false then none
  else
    match afterLen.drop len with
    | 59 :: rest => some ((label, afterLen.take len), rest)
    | _ => none

theorem length_lt_of_splitOnce {a : UInt8} {x l r : Bytes}
    (h : Search.splitOnce a x = some (l, r)) : r.length < x.length := by
  rw [(Search.splitOnce_eq_some_iff.1 h).1, List.length_append, List.length_cons]
  omega

theorem length_lt_of_readComponent {rest after : Bytes} {c : Component}
    (h : readComponent rest = some (c, after)) : after.length < rest.length := by
  simp only [readComponent, Option.bind_eq_bind, Option.bind_eq_some_iff] at h
  obtain ⟨⟨label, afterComponent⟩, hlabel, ⟨len, afterLen⟩, hlen, n, -, hrest⟩ := h
  have h1 := length_lt_of_splitOnce hlabel
  have h2 := length_lt_of_splitOnce hlen
  dsimp only at hrest hlen h2
  split_ifs at hrest
  split at hrest
  · rename_i tail htail
    obtain ⟨-, rfl⟩ := Prod.mk.inj (Option.some.inj hrest)
    have := congrArg List.length htail
    rw [List.length_drop, List.length_cons] at this
    omega
  · cases hrest

/-- The value of the first component with a label. -/
def findComponent (name : Bytes) (rest : Bytes) : Option Bytes :=
  if rest = [] then none
  else
    match _h : readComponent rest with
    | none => none
    | some (c, after) => if c.1 = name then some c.2 else findComponent name after
  termination_by rest.length
  decreasing_by exact length_lt_of_readComponent ‹_›

/-- A component, taken from a key by its label. -/
def cachePrimaryComponent (primaryKey name : Bytes) : Option Bytes :=
  findComponent name
    (if IMAGE_KEY_MAGIC <+: primaryKey then primaryKey.drop IMAGE_KEY_MAGIC.length else primaryKey)

end Fluxheim.Cache
