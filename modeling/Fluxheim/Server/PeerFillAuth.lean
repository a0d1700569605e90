import Fluxheim.Lib.Framed
import Fluxheim.Lib.TextLines
import Fluxheim.Lib.WhiteSpace
import Fluxheim.Server.UpstreamResponse
import Mathlib.Data.List.Sort

/-!
# Signed responses of cache peers

A peer signs its response with the request it answers.  What is signed is a list of fields behind
their lengths, the last ones of which are the response's headers in order and a digest of its body.
-/

namespace Fluxheim.Server

open Ascii Framed List

def NATIVE_PEER_FILL_NONCE_HEADER : Bytes := ascii "x-fluxheim-peer-fill-nonce"
def NATIVE_PEER_FILL_RESPONSE_SIGNATURE_HEADER : Bytes :=
  ascii "x-fluxheim-peer-fill-response-signature"

/-- The shared secret, with the two digests. -/
structure NativePeerFillAuth where
  secret : Bytes
  hmacSha256 : Bytes → Bytes → Bytes
  sha256 : Bytes → Bytes

variable (headers : List (Bytes × Bytes))

/-- `native_request_header`, for the headers of either message. -/
def nativeHeader (name : Bytes) : Option Bytes :=
  (headers.find? fun header => eqIgnoreCase header.1 name).map Prod.snd

/-- `native_request_single_header_value` and `native_response_single_header_value`. -/
def nativeSingleHeaderValue (name : Bytes) : Option Bytes :=
  match headers.filter fun header => eqIgnoreCase header.1 name with
  | [header] => some (trimText header.2)
  | _ => none

/-- The headers that are signed: all but the two of the signature. -/
def signedHeaders (response : NativeHttp1Response) : List (Bytes × Bytes) :=
  (response.headers.filter fun header => !eqIgnoreCase header.1 NATIVE_PEER_FILL_NONCE_HEADER &&
    !eqIgnoreCase header.1 NATIVE_PEER_FILL_RESPONSE_SIGNATURE_HEADER).map
      fun header => (header.1.map lower, header.2)

/-- The signed headers in order. -/
def nativePeerFillCanonicalResponseHeaders (response : NativeHttp1Response) :
    List (Bytes × Bytes) :=
  (signedHeaders response).insertionSort fun a b => a.1 < b.1 ∨ a.1 = b.1 ∧ a.2 ≤ b.2

variable (auth : NativePeerFillAuth)

/-- `native_peer_fill_hmac_context` with the fields that are added to it, in hexadecimal. -/
def NativePeerFillAuth.sign (xs : List Bytes) : Bytes :=
  hexEncode (auth.hmacSha256 auth.secret (fields xs))

/-- The signature of a request. -/
def nativePeerFillRequestSignature (target : Bytes)
    (headers : List (Bytes × Bytes)) (nonce : Bytes) : Bytes :=
  auth.sign [ascii "fluxheim-peer-fill-request-v1", ascii "GET", target,
    (nativeHeader headers (ascii "host")).getD [], nonce]

variable (request : NativeHttp1Request)

/-- The host that is signed; a request without a host has an empty one. -/
def signedHost : Bytes :=
  (nativeHeader request.headers (ascii "host")).getD []

variable (response : NativeHttp1Response)

/-- The fields that are signed in a response. -/
def responseFields (nonce : Bytes) : List Bytes :=
  [ascii "fluxheim-peer-fill-response-v1", request.method, request.target,
    signedHost request, nonce, decimal response.status] ++
  ((nativePeerFillCanonicalResponseHeaders response).flatMap fun header => [header.1, header.2]) ++
  [auth.sha256 response.body]

/-- The signature of a response. -/
def nativePeerFillResponseSignature (nonce : Bytes) : Bytes :=
  auth.sign (responseFields auth request response nonce)

/-- The two signatures are the same. -/
def nativePeerFillSignatureMatches (candidate expected : Bytes) : Bool :=
  trimText candidate == expected

/-- The check of a response. -/
def nativePeerFillResponseSignatureMatches : Bool :=
  match nativeSingleHeaderValue request.headers NATIVE_PEER_FILL_NONCE_HEADER,
    nativeSingleHeaderValue response.headers NATIVE_PEER_FILL_NONCE_HEADER,
    nativeSingleHeaderValue response.headers NATIVE_PEER_FILL_RESPONSE_SIGNATURE_HEADER with
  | some requestNonce, some responseNonce, some candidate =>
    requestNonce == responseNonce && nativePeerFillSignatureMatches candidate
      (nativePeerFillResponseSignature auth request response requestNonce)
  | _, _, _ => false

theorem flatMap_pair_inj {xs ys : List (Bytes × Bytes)}
    (h : (xs.flatMap fun x => [x.1, x.2]) = ys.flatMap fun y => [y.1, y.2]) : xs = ys := by
  induction xs generalizing ys with
  | nil => cases ys <;> simp_all
  | cons x xs ih =>
    cases ys with
    | nil => simp at h
    | cons y ys =>
      simp only [flatMap_cons, cons_append, nil_append, cons.injEq] at h
      rw [ih h.2.2, Prod.ext h.1 h.2.1]

theorem decimal_injective : Function.Injective decimal := fun m n h => by
  rw [← decimalValue_decimal m, h, decimalValue_decimal]

/-- What is signed of a response to a request is the same for `r` and `a` as for `r'` and `a'`. -/
structure SameSigned (r r' : NativeHttp1Request) (a a' : NativeHttp1Response) : Prop where
  method : r.method = r'.method
  target : r.target = r'.target
  host : signedHost r = signedHost r'
  status : a.status = a'.status
  body : a.body = a'.body
  headers : (signedHeaders a).Perm (signedHeaders a')

theorem responseFields_inj {auth : NativePeerFillAuth} (hs : Function.Injective auth.sha256)
    {r r' : NativeHttp1Request} {a a' : NativeHttp1Response} {n n' : Bytes}
    (h : responseFields auth r a n = responseFields auth r' a' n') :
    SameSigned r r' a a' ∧ n = n' := by
  obtain ⟨h, hd⟩ := append_inj' h rfl
  obtain ⟨h, hh⟩ := append_inj h rfl
  simp only [cons.injEq, and_true, true_and] at h hd
  obtain ⟨hm, ht, ho, hn, hstatus⟩ := h
  refine ⟨⟨hm, ht, ho, decimal_injective hstatus, hs hd, ?_⟩, hn⟩
  exact (perm_insertionSort _ _).symm.trans
    ((Perm.of_eq (flatMap_pair_inj hh)).trans (perm_insertionSort _ _))

/-- The lengths of texts in memory are numbers of 64 bits. -/
def InMemory (xs : List Bytes) : Prop := ∀ x ∈ xs, x.length < 2 ^ 64

instance decidableInMemory (xs : List Bytes) : Decidable (InMemory xs) :=
  inferInstanceAs (Decidable (∀ x ∈ xs, _))

theorem sign_inj {auth : NativePeerFillAuth} (hh : Function.Injective (auth.hmacSha256 auth.secret))
    {xs ys : List Bytes} (hx : InMemory xs) (hy : InMemory ys) (h : auth.sign xs = auth.sign ys) :
    xs = ys := by
  have hx' := congrArg hexDecode h
  simp only [NativePeerFillAuth.sign, hexDecode_hexEncode, Option.some_inj] at hx'
  exact fields_inj hx hy (hh hx')

/-- **With digests that are injective, a response that is accepted for a request carries a signature
that was made for the same method, target, host, nonce, status and body and the same headers, in any
order, and that is not the signature of a request.** -/
theorem peer_fill_response_signed (auth : NativePeerFillAuth)
    (hh : Function.Injective (auth.hmacSha256 auth.secret)) (hs : Function.Injective auth.sha256)
    (request : NativeHttp1Request) (response : NativeHttp1Response) {nonce signature : Bytes}
    (hnonce : nativeSingleHeaderValue request.headers NATIVE_PEER_FILL_NONCE_HEADER = some nonce)
    (hsig : nativeSingleHeaderValue response.headers NATIVE_PEER_FILL_RESPONSE_SIGNATURE_HEADER =
      some signature)
    (hmem : InMemory (responseFields auth request response nonce))
    (h : nativePeerFillResponseSignatureMatches auth request response = true) :
    (∀ request' response' nonce', InMemory (responseFields auth request' response' nonce') →
      trimText signature = nativePeerFillResponseSignature auth request' response' nonce' →
      SameSigned request request' response response' ∧ nonce = nonce') ∧
    ∀ target headers nonce',
      InMemory [target, (nativeHeader headers (ascii "host")).getD [], nonce'] →
      trimText signature ≠ nativePeerFillRequestSignature auth target headers nonce' := by
  have hm : trimText signature = auth.sign (responseFields auth request response nonce) := by
    unfold nativePeerFillResponseSignatureMatches at h
    rw [hnonce, hsig] at h
    split at h
    · next h1 _ h2 =>
      cases h1
      cases h2
      simp only [Bool.and_eq_true, nativePeerFillSignatureMatches, beq_iff_eq] at h
      exact h.2
    · cases h
  refine ⟨fun request' response' nonce' hmem' h' => ?_, fun target headers nonce' hmem' h' => ?_⟩
  · exact responseFields_inj hs (sign_inj hh hmem hmem' (hm.symm.trans h'))
  · -- the labels differ
    have hreq : InMemory (ascii "fluxheim-peer-fill-request-v1" :: ascii "GET" ::
        [target, (nativeHeader headers (ascii "host")).getD [], nonce']) := by
      refine forall_mem_cons.2 ⟨by decide +kernel, forall_mem_cons.2 ⟨by decide +kernel, hmem'⟩⟩
    have hf := sign_inj hh hmem hreq (hm.symm.trans h')
    exact absurd (cons.inj hf).1 (by decide +kernel)

/-- Digests that are injective. -/
def plainAuth : NativePeerFillAuth := ⟨[], fun _ x => x, id⟩

/-- A request of a peer, with further headers. -/
def peerRequest : NativeHttp1Request :=
  ⟨ascii "GET", ascii "/", .http11, (NATIVE_PEER_FILL_NONCE_HEADER, ascii "n") :: headers, []⟩

/-- A response with headers. -/
def okResponse : NativeHttp1Response := ⟨200, [], headers, none, [1]⟩

/-- The response to a request, signed with its headers in the opposite order. -/
def peerResponse (request : NativeHttp1Request) : NativeHttp1Response :=
  okResponse ((NATIVE_PEER_FILL_NONCE_HEADER, ascii "n") ::
    (NATIVE_PEER_FILL_RESPONSE_SIGNATURE_HEADER, nativePeerFillResponseSignature plainAuth request
      (okResponse headers.reverse) (ascii "n")) :: headers)

/-- The two sides have other requests of one host, and the headers of the response in another
order. -/
theorem peer_fill_response_signed_plain :
    let host := (ascii "host", ascii "b")
    let headers := [(ascii "etag", ascii "1"), (ascii "vary", ascii "a")]
    SameSigned (peerRequest [host]) (peerRequest [(ascii "accept", ascii "*"), host])
      (peerResponse headers (peerRequest [(ascii "accept", ascii "*"), host]))
      (okResponse headers.reverse) :=
  ((peer_fill_response_signed plainAuth (fun _ _ h => h) (fun _ _ h => h) (peerRequest [_])
    (peerResponse _ _) rfl rfl (by decide +kernel) (by decide +kernel)).1 _ _ (ascii "n")
    (by decide +kernel) (by decide +kernel)).1

/-- A response to a request without a host is accepted for one with an empty host. -/
theorem peer_fill_without_host :
    let response := peerResponse [] (peerRequest [])
    nativePeerFillResponseSignatureMatches plainAuth (peerRequest []) response = true ∧
    nativePeerFillResponseSignatureMatches plainAuth (peerRequest [(ascii "host", [])]) response =
      true ∧
    nativeHeader (peerRequest []).headers (ascii "host") = none ∧
    nativeHeader (peerRequest [(ascii "host", [])]).headers (ascii "host") = some [] := by
  decide +kernel

end Fluxheim.Server
