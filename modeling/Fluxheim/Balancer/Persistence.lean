import Mathlib.Data.List.MinMax
import Fluxheim.Lib.Search
import Fluxheim.Lib.WhiteSpace
import Fluxheim.Balancer.Pool

/-!
# Sticky sessions

A pool can keep the requests of one client on one backend.  The client is told by its address, a
header, a cookie of the application, or a cookie of the pool's own.
-/

namespace Fluxheim.Balancer

open Ascii

def MAX_PERSISTENCE_KEY_BYTES : ℕ := 512
def MANAGED_COOKIE_KEY_BYTES : ℕ := 16

/-- What the pool sees of a request. -/
structure LoadBalancerRequestView where
  uriKey : Bytes
  headerValues : Bytes → List Bytes
  cookieHeaders : List Bytes

/-- The address of a client, by its text. -/
structure IpAddr where
  text : Bytes
  text_ne_nil : text ≠ []
  text_length_le : text.length ≤ 39

/-- Every value with its length before it, as long as the key is not too long. -/
def headerKeyLoop : List Bytes → Bytes → Option Bytes
  | [], key => some key
  | value :: values, key =>
    let key := key ++ toLeBytes (UInt64.ofNat value.length) ++ value
    if MAX_PERSISTENCE_KEY_BYTES < key.length then none else headerKeyLoop values key

variable (request : LoadBalancerRequestView)

/-- The key of a header: all its values. -/
def requestHeaderKey (name : Bytes) : Option Bytes :=
  (headerKeyLoop (request.headerValues name) []).filter (fun key => !key.isEmpty)

/-- The value of the cookie in one part of a header. -/
def cookieValue (name part : Bytes) : Option Bytes :=
  match Search.splitOnce 61 (trimText part) with
  | none => none
  | some (candidate, value) => if trimText candidate = name then some (trimText value) else none

/-- The first cookie of that name. -/
def cookieKey (name : Bytes) : Option Bytes :=
  match (request.cookieHeaders.flatMap (List.splitOn 59)).findSome? (cookieValue name) with
  | none => none
  | some value => if MAX_PERSISTENCE_KEY_BYTES < value.length then none else some value

/-- The pool's own cookies: a token is the encoded key with its authentication code. -/
structure ManagedCookieCodec where
  token : Bytes → Bytes → Option Bytes
  verify : Bytes → Bytes → Option { key : Bytes // key.length = MANAGED_COOKIE_KEY_BYTES }

/-- The key in the pool's own cookie. -/
def managedCookieKey (codec : ManagedCookieCodec) (request : LoadBalancerRequestView)
    (name : Bytes) : Option Bytes :=
  ((cookieKey request name).bind (codec.verify name)).map Subtype.val

/-- What is hashed. -/
inductive LoadBalanceKeySource where
  | none
  | sourceIp
  | uri
  | header (name : Bytes)
  | cookie (name : Bytes)

/-- The key that a hash of the request is taken of. -/
def LoadBalanceKeySource.requestKey (clientIp : Option IpAddr) : LoadBalanceKeySource → Option Bytes
  | .none => Option.none
  | .sourceIp => clientIp.map (·.text)
  | .uri => some request.uriKey
  | .header name => requestHeaderKey request name
  | .cookie name => cookieKey request name

/-! ### The table -/

/-- What tells a client. -/
inductive LoadBalancePersistenceMode where
  | sourceIp
  | header
  | cookie
  | managedCookie
  deriving DecidableEq

/-- The `SameSite` attribute. -/
inductive LoadBalanceManagedCookieSameSite where
  | strict
  | lax
  | none

/-- Its text. -/
def LoadBalanceManagedCookieSameSite.asStr : LoadBalanceManagedCookieSameSite → String
  | .strict => "Strict"
  | .lax => "Lax"
  | .none => "None"

/-- The pool's own cookie. -/
structure ManagedCookieConfig where
  name : Bytes
  domain : Option Bytes
  path : Bytes
  secure : Bool
  httpOnly : Bool
  sameSite : LoadBalanceManagedCookieSameSite
  maxAgeSecs : ℕ

/-- The `Set-Cookie` value. -/
def ManagedCookieConfig.headerValue (config : ManagedCookieConfig) (value : Bytes) : Bytes :=
  config.name ++ ascii "=" ++ value ++ ascii "; Path=" ++ config.path ++
    (config.domain.elim [] (ascii "; Domain=" ++ ·)) ++
    ascii "; Max-Age=" ++ decimal config.maxAgeSecs ++
    (if config.httpOnly then ascii "; HttpOnly" else []) ++
    (if config.secure then ascii "; Secure" else []) ++
    ascii "; SameSite=" ++ ascii config.sameSite.asStr

/-- A session: its backend and its end. -/
structure LoadBalancerPersistenceEntry where
  backendKey : Key
  expiresAt : Instant
  deriving DecidableEq

/-- The table of sessions. -/
structure LoadBalancerPersistenceState where
  mode : LoadBalancePersistenceMode
  header : Option Bytes
  cookie : Option Bytes
  ttlSecs : ℕ
  tableMaxEntries : ℕ
  managedCookie : Option ManagedCookieConfig
  table : AList fun _ : Bytes => LoadBalancerPersistenceEntry

/-- An exported session. -/
structure LoadBalancerPersistenceEntrySnapshot where
  key : Bytes
  backendKey : Key
  ttlRemainingSecs : ℕ

/-- The exported sessions. -/
structure LoadBalancerPersistenceSnapshot where
  entries : List LoadBalancerPersistenceEntrySnapshot

namespace LoadBalancerPersistenceState

variable (state : LoadBalancerPersistenceState)

/-- The key of a request. -/
def key (codec : ManagedCookieCodec) (request : LoadBalancerRequestView)
    (clientIp : Option IpAddr) : Option Bytes :=
  match state.mode with
  | .sourceIp => clientIp.map (·.text)
  | .header => state.header.bind (requestHeaderKey request)
  | .cookie => state.cookie.bind (cookieKey request)
  | .managedCookie => state.managedCookie.bind fun config =>
    managedCookieKey codec request config.name

/-- The pool sets the cookie. -/
def isManagedCookie : Bool := state.mode == .managedCookie

/-- The backend of a key.  An entry that is over is dropped. -/
def lookup (now : Instant) (key : Bytes) : Option Key × LoadBalancerPersistenceState :=
  match state.table.lookup key with
  | none => (none, state)
  | some entry =>
    if entry.expiresAt ≤ now then (none, { state with table := state.table.erase key })
    else (some entry.backendKey, state)

variable (now : Instant)

/-- Room for a new key in a full table: the entries that are over go, and if none was, the one
that is over first. -/
def makeRoom : LoadBalancerPersistenceState :=
  let table := state.table.retain fun entry => if now < entry.expiresAt then some entry else none
  if state.tableMaxEntries ≤ table.entries.length then
    match table.entries.argmin (·.2.expiresAt) with
    | none => { state with table := table }
    | some stale => { state with table := table.erase stale.1 }
  else { state with table := table }

/-- A session is recorded, in a full table after making room. -/
def record (key : Bytes) (backendKey : Key) : LoadBalancerPersistenceState :=
  let state :=
    if state.tableMaxEntries ≤ state.table.entries.length ∧ key ∉ state.table then
      state.makeRoom now
    else state
  if state.table.entries.length < state.tableMaxEntries ∨ key ∈ state.table then
    { state with
      table := state.table.insert key ⟨backendKey, now + Duration.fromSecs state.ttlSecs⟩ }
  else state

/-- All sessions end; their number. -/
def clear : ℕ × LoadBalancerPersistenceState :=
  (state.table.entries.length, { state with table := ∅ })

/-- The number of sessions on each backend. -/
def runtimeCounts : AList fun _ : Key => ℕ :=
  (state.table.entries.filter fun e => now < e.2.expiresAt).foldl
    (fun counts e => counts.insert e.2.backendKey ((counts.lookup e.2.backendKey).getD 0 + 1)) ∅

/-- The sessions that are over or without a member go. -/
def pruneStaleForLiveBackends (liveKeys : Finset Key) : LoadBalancerPersistenceState :=
  { state with
    table := state.table.retain fun entry =>
      if now < entry.expiresAt ∧ entry.backendKey ∈ liveKeys then some entry else none }

/-- A session with the seconds it has left, at least one. -/
def entrySnapshot (e : Σ _ : Bytes, LoadBalancerPersistenceEntry) :
    LoadBalancerPersistenceEntrySnapshot where
  key := e.1
  backendKey := e.2.backendKey
  ttlRemainingSecs := min (max (Duration.asSecs (e.2.expiresAt - now)) 1) state.ttlSecs

/-- The order of exported entries: by backend, then by key. -/
def entrySnapshotLe (a b : LoadBalancerPersistenceEntrySnapshot) : Prop :=
  a.backendKey < b.backendKey ∨ a.backendKey = b.backendKey ∧ a.key ≤ b.key

instance : DecidableRel entrySnapshotLe := fun a b =>
  inferInstanceAs (Decidable (a.backendKey < b.backendKey ∨ a.backendKey = b.backendKey ∧
    a.key ≤ b.key))

/-- The export of the live sessions, in the order of their keys. -/
def snapshot (now : Instant) (liveKeys : Finset Key) : LoadBalancerPersistenceSnapshot where
  entries :=
    ((state.table.entries.filter fun e =>
      now < e.2.expiresAt ∧ e.2.backendKey ∈ liveKeys).map (state.entrySnapshot now)).insertionSort
      entrySnapshotLe

/-- The entries of a snapshot, one after the other. -/
def prepareEntries (now : Instant) (liveKeys : Finset Key) :
    List LoadBalancerPersistenceEntrySnapshot →
      (AList fun _ : Bytes => LoadBalancerPersistenceEntry) →
      Except String (AList fun _ : Bytes => LoadBalancerPersistenceEntry)
  | [], next => .ok next
  | entry :: entries, next =>
    if entry.key = [] ∨ MAX_PERSISTENCE_KEY_BYTES < entry.key.length then
      .error "load balancer persistence snapshot has invalid key"
    else if entry.ttlRemainingSecs = 0 ∨ state.ttlSecs < entry.ttlRemainingSecs then
      .error "load balancer persistence snapshot has invalid ttl"
    else if entry.backendKey ∉ liveKeys then prepareEntries now liveKeys entries next
    else if entry.key ∈ next then
      .error "load balancer persistence snapshot has duplicate keys"
    else
      prepareEntries now liveKeys entries
        (next.insert entry.key ⟨entry.backendKey, now + Duration.fromSecs entry.ttlRemainingSecs⟩)

/-- The table a snapshot stands for, which then replaces the current one. -/
def prepareSnapshot (liveKeys : Finset Key) (snapshot : LoadBalancerPersistenceSnapshot) :
    Except String (AList fun _ : Bytes => LoadBalancerPersistenceEntry) :=
  if state.tableMaxEntries < snapshot.entries.length then
    .error "load balancer persistence snapshot exceeds table limit"
  else state.prepareEntries now liveKeys snapshot.entries ∅

end LoadBalancerPersistenceState

end Fluxheim.Balancer
