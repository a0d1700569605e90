import Mathlib.Data.List.Sort
import Fluxheim.Http1.Token

/-!
# The `Vary` policy

Which request headers select between the stored responses of one cache key: those that the `Vary`
header of the response names, and those of the configuration.
-/

namespace Fluxheim.Cache

open Ascii

def MAX_VARY_FIELDS : ℕ := 16
def MAX_VARY_HEADER_BYTES : ℕ := 2048

/-- No field, some, or no caching. -/
inductive VaryCachePolicy where
  | none
  | fields (names : List Bytes)
  | uncacheable (reason : String)
  deriving DecidableEq

/-- Fields that hold credentials. -/
def isSensitiveVaryField (field : Bytes) : Bool :=
  field == ascii "authorization" || field == ascii "cookie" || field == ascii "proxy-authorization"

/-- `HeaderValue::to_str`: visible ASCII and tabs only. -/
def visibleAscii (value : Bytes) : Bool := value.all fun b => 32 ≤ b && b < 127 || b == 9

/-- A field that is not listed yet is added. -/
def addVaryField (fields : List Bytes) (field : Bytes) : List Bytes :=
  if field ∈ fields then fields else fields ++ [field]

/-- The fields of one header line, after `fields`. -/
def varyLineFields : List Bytes → List Bytes → Except String (List Bytes)
  | [], fields => .ok fields
  | raw :: rest, fields =>
    let field := trim raw
    if field = [] then .error "vary-invalid"
    else if field = [42] then .error "vary-star"
    else if httpTokenValid field = false then .error "vary-invalid"
    else if isSensitiveVaryField (field.map lower) then .error "vary-sensitive-field"
    else if MAX_VARY_FIELDS < (addVaryField fields (field.map lower)).length then
      .error "vary-too-many-fields"
    else varyLineFields rest (addVaryField fields (field.map lower))

/-- The fields of the header lines, of which `total` bytes have been read. -/
def varyHeaderFields : List Bytes → ℕ → List Bytes → Except String (List Bytes)
  | [], _, fields => .ok fields
  | value :: values, total, fields =>
    if MAX_VARY_HEADER_BYTES < Fluxheim.saturatingAdd total value.length then
      .error "vary-too-large"
    else if visibleAscii value = false then .error "vary-invalid"
    else
      match varyLineFields (value.splitOn 44) fields with
      | .error reason => .error reason
      | .ok fields => varyHeaderFields values (Fluxheim.saturatingAdd total value.length) fields

/-- The fields of the configuration, after those of the response. -/
def configuredVaryFields : List Bytes → List Bytes → Except String (List Bytes)
  | [], fields => .ok fields
  | configured :: rest, fields =>
    if MAX_VARY_FIELDS < (addVaryField fields (configured.map lower)).length then
      .error "vary-too-many-fields"
    else configuredVaryFields rest (addVaryField fields (configured.map lower))

/-- The policy of a response with the given `Vary` lines. -/
def cacheVaryPolicy (varyValues varyRequestHeaders : List Bytes) : VaryCachePolicy :=
  match varyHeaderFields varyValues 0 [] with
  | .error reason => .uncacheable reason
  | .ok fields =>
    match configuredVaryFields varyRequestHeaders fields with
    | .error reason => .uncacheable reason
    | .ok [] => .none
    | .ok (field :: fields) => .fields ((field :: fields).insertionSort (· ≤ ·))

theorem varyLineFields_length {raws fields res : List Bytes}
    (h : varyLineFields raws fields = .ok res) (hle : fields.length ≤ MAX_VARY_FIELDS) :
    res.length ≤ MAX_VARY_FIELDS := by
  induction raws generalizing fields with
  | nil => exact Except.ok.inj h ▸ hle
  | cons raw raws ih =>
    rw [varyLineFields] at h
    split_ifs at h with _ _ _ _ hmany
    exact ih h (not_lt.1 hmany)

theorem varyHeaderFields_length {vs fields res : List Bytes} {total : ℕ}
    (h : varyHeaderFields vs total fields = .ok res)
    (hle : fields.length ≤ MAX_VARY_FIELDS) : res.length ≤ MAX_VARY_FIELDS := by
  induction vs generalizing fields total with
  | nil => exact Except.ok.inj h ▸ hle
  | cons v vs ih =>
    rw [varyHeaderFields] at h
    split_ifs at h
    split at h
    · cases h
    · rename_i next hnext
      exact ih h (varyLineFields_length hnext hle)

theorem configuredVaryFields_length {configured fields res : List Bytes}
    (h : configuredVaryFields configured fields = .ok res)
    (hle : fields.length ≤ MAX_VARY_FIELDS) : res.length ≤ MAX_VARY_FIELDS := by
  induction configured generalizing fields with
  | nil => exact Except.ok.inj h ▸ hle
  | cons name configured ih =>
    rw [configuredVaryFields] at h
    split_ifs at h with hmany
    exact ih h (not_lt.1 hmany)

/-- At most sixteen fields select between the variants of a response. -/
theorem cacheVaryPolicy_length_le {varyValues varyRequestHeaders ns : List Bytes}
    (h : cacheVaryPolicy varyValues varyRequestHeaders = .fields ns) :
    ns.length ≤ MAX_VARY_FIELDS := by
  rw [cacheVaryPolicy] at h
  split at h
  · cases h
  · rename_i fields hfields
    split at h
    · cases h
    · cases h
    · rename_i field rest hrest
      rw [← VaryCachePolicy.fields.inj h, List.length_insertionSort]
      exact configuredVaryFields_length hrest
        (varyHeaderFields_length hfields (Nat.zero_le _))

end Fluxheim.Cache
