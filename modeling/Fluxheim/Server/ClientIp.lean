import Fluxheim.Server.Address

/-!
# The address of a client behind proxies

A peer that is a trusted proxy says in `X-Forwarded-For` whom it forwards for, and every proxy adds
its own peer on the right.  The client is the first hop from the right that is no trusted proxy, so
what the client itself wrote, on the left of it, has no influence.  How an address is read,
`parseIp`, is fixed from outside.
-/

namespace Fluxheim.Server

open Ascii List

section Hops

variable (parseIp : Bytes → Option IpAddr)

/-- One hop, which may be in quotes and brackets. -/
def parseXForwardedForIp (value : Bytes) : Option IpAddr :=
  let value := trimText value
  if value = [] then none
  else
    let unquoted :=
      match decide (value.head? = some 34), decide (value.getLast? = some 34) with
      | true, true =>
        -- a single quote begins and ends with itself, but cannot lose it twice
        if value.length = 1 then none
        else
          let inner := value.tail.dropLast
          if inner = [] ∨ 34 ∈ inner then none else some inner
      | false, false => some value
      | _, _ => none
    match unquoted with
    | none => none
    | some value =>
      if value.head? = some 91 ∧ value.tail.getLast? = some 93 then
        match parseIp value.tail.dropLast with
        | some (.v6 octets) => some (.v6 octets)
        | _ => none
      else parseIp value

/-- The loop of `effective_client_ip` over the hops from the right. -/
def clientHopLoop (trusted : IpAddr → Bool) (directIp : IpAddr) :
    Option IpAddr → List Bytes → IpAddr
  | lastValidHop, [] => lastValidHop.getD directIp
  | lastValidHop, rawHop :: hops =>
    match parseXForwardedForIp parseIp rawHop with
    | none => directIp
    | some hop =>
      if trusted hop = false then hop
      else clientHopLoop trusted directIp (some (lastValidHop.getD hop)) hops

/-- The client of a connection. -/
def effectiveClientIp (directIp : IpAddr) (trustedDirectPeer : Bool)
    (originalXForwardedFor : Option Bytes) (trustedProxyMatcher : Option (IpAddr → Bool)) :
    IpAddr :=
  if trustedDirectPeer = false then directIp
  else
    match originalXForwardedFor, trustedProxyMatcher with
    | some value, some trusted =>
      clientHopLoop parseIp trusted directIp none (value.splitOn 44).reverse
    | _, _ => directIp

/-- The values of the lines of one name, joined. -/
def joinedHeaderValue (headers : List (Bytes × Bytes)) (name : Bytes) : Option Bytes :=
  match (headers.filter fun header =>
      eqIgnoreCase header.1 name && trimText header.2 != []).map fun header =>
        trimText header.2 with
  | [] => none
  | first :: values => some (values.foldl (fun joined value => joined ++ ascii ", " ++ value) first)

/-- What `access_client_ip` reads of a request. -/
structure ClientRequest where
  effectiveClientAddr : Option SocketAddr
  peerAddr : Option SocketAddr
  headers : List (Bytes × Bytes)

/-- `access_client_ip`; `trusted` is `trusted_source_contains`. -/
def accessClientIp (trusted : IpAddr → Bool) (request : ClientRequest) : Option IpAddr :=
  match request.effectiveClientAddr with
  | some addr => some addr.ip
  | none =>
    request.peerAddr.map fun addr =>
      effectiveClientIp parseIp addr.ip (trusted addr.ip)
        (joinedHeaderValue request.headers (ascii "x-forwarded-for")) (some trusted)

/-- Hops that are read, and are trusted proxies. -/
def TrustedHops (trusted : IpAddr → Bool) (hops : List Bytes) : Prop :=
  ∀ rawHop ∈ hops, ∃ hop, parseXForwardedForIp parseIp rawHop = some hop ∧ trusted hop = true

variable {parseIp} {trusted : IpAddr → Bool} {directIp : IpAddr}

variable {hops left right : List Bytes}

/-- The loop passes over trusted hops, and remembers the first of them. -/
theorem clientHopLoop_append (h : TrustedHops parseIp trusted hops)
    (last : Option IpAddr) (rest : List Bytes) :
    clientHopLoop parseIp trusted directIp last (hops ++ rest) =
      clientHopLoop parseIp trusted directIp
        (last.or (hops.head?.bind (parseXForwardedForIp parseIp))) rest := by
  induction hops generalizing last with
  | nil => rw [nil_append, head?_nil, Option.bind_none, Option.or_none]
  | cons rawHop hops ih =>
    obtain ⟨hop, hhop, htru⟩ := h rawHop mem_cons_self
    have hlast : last.or (some hop) = some (last.getD hop) := by cases last <;> rfl
    rw [cons_append, clientHopLoop, hhop]
    dsimp only
    rw [htru, if_neg Bool.noConfusion,
      ih fun rawHop hmem => h rawHop (mem_cons_of_mem _ hmem), head?_cons,
      Option.bind_some, hhop, hlast, Option.some_or]

theorem TrustedHops.reverse (h : TrustedHops parseIp trusted hops) :
    TrustedHops parseIp trusted hops.reverse :=
  fun rawHop hmem => h rawHop (mem_reverse.1 hmem)

variable {v rawHop : Bytes}

/-- What is found when trusted hops stand on the right of a hop. -/
theorem effectiveClientIp_of_splitOn
    (hpeer : trusted directIp = true) (hv : v.splitOn 44 = left ++ rawHop :: right)
    (hright : TrustedHops parseIp trusted right) :
    ∃ last, effectiveClientIp parseIp directIp (trusted directIp) (some v) (some trusted) =
      clientHopLoop parseIp trusted directIp last (rawHop :: left.reverse) := by
  rw [effectiveClientIp, hpeer, hv, reverse_append, reverse_cons, append_assoc,
    clientHopLoop_append hright.reverse]
  exact ⟨_, rfl⟩

/-- A hop that is read and is no trusted proxy is the client. -/
theorem effectiveClientIp_of_untrusted {hop : IpAddr} (hpeer : trusted directIp = true)
    (hv : v.splitOn 44 = left ++ rawHop :: right) (hright : TrustedHops parseIp trusted right)
    (hhop : parseXForwardedForIp parseIp rawHop = some hop) (huntrusted : trusted hop = false) :
    effectiveClientIp parseIp directIp (trusted directIp) (some v) (some trusted) = hop := by
  obtain ⟨last, hlast⟩ := effectiveClientIp_of_splitOn hpeer hv hright
  rw [hlast, clientHopLoop, hhop]
  exact if_pos huntrusted

/-- **The client of a request from a trusted proxy is the first hop from the right that is no
trusted proxy, whatever text stands on the left of it; it is the peer if a malformed hop comes
first, and the rightmost hop if all hops are trusted.  The client of a request from anyone else is
the peer.** -/
theorem effective_client_ip_hops (parseIp : Bytes → Option IpAddr) (trusted : IpAddr → Bool)
    (directIp : IpAddr) (value : Bytes) :
    (trusted directIp = false →
      effectiveClientIp parseIp directIp (trusted directIp) (some value) (some trusted) =
        directIp) ∧
    (trusted directIp = true →
      (∀ left rawHop right, value.splitOn 44 = left ++ rawHop :: right →
        TrustedHops parseIp trusted right →
        (∀ hop, parseXForwardedForIp parseIp rawHop = some hop → trusted hop = false →
          effectiveClientIp parseIp directIp (trusted directIp) (some value) (some trusted) = hop ∧
          ∀ text, effectiveClientIp parseIp directIp (trusted directIp)
            (some (text ++ 44 :: [44].intercalate (rawHop :: right))) (some trusted) = hop) ∧
        (parseXForwardedForIp parseIp rawHop = none →
          effectiveClientIp parseIp directIp (trusted directIp) (some value) (some trusted) =
            directIp)) ∧
      (TrustedHops parseIp trusted (value.splitOn 44) →
        ∃ rightmost, (value.splitOn 44).getLast? = some rightmost ∧
          parseXForwardedForIp parseIp rightmost =
            some (effectiveClientIp parseIp directIp (trusted directIp) (some value)
              (some trusted)))) ∧
    ∀ request peer, request.effectiveClientAddr = none → request.peerAddr = some peer →
      peer.ip = directIp →
      joinedHeaderValue request.headers (ascii "x-forwarded-for") = some value →
      accessClientIp parseIp trusted request =
        some (effectiveClientIp parseIp directIp (trusted directIp) (some value)
          (some trusted)) := by
  refine ⟨fun hpeer => ?_, fun hpeer => ⟨fun left rawHop right hv hright => ⟨fun hop hhop
    huntrusted => ⟨effectiveClientIp_of_untrusted hpeer hv hright hhop huntrusted, fun text => ?_⟩,
    fun hmal => ?_⟩, fun hall => ?_⟩, fun request peer heff hpeer hip hjoin => ?_⟩
  · rw [effectiveClientIp, if_pos hpeer]
  · -- the hops on the right hold no comma, so they are cut off again
    have hcom : ∀ hop ∈ rawHop :: right, 44 ∉ hop := by
      intro hop hmem hcom
      have hin : hop ∈ value.splitOn 44 := by
        rw [hv]
        exact mem_append_right _ hmem
      exact (Search.mem_of_mem_splitOn hin 44 hcom).2 rfl
    have hsplit : (text ++ 44 :: [44].intercalate (rawHop :: right)).splitOn 44 =
        text.splitOn 44 ++ rawHop :: right := by
      rw [splitOn_append_cons_self, splitOn_intercalate 44 hcom (cons_ne_nil _ _)]
    exact effectiveClientIp_of_untrusted hpeer hsplit hright hhop huntrusted
  · obtain ⟨last, hlast⟩ := effectiveClientIp_of_splitOn hpeer hv hright
    rw [hlast, clientHopLoop, hmal]
  · obtain ⟨rightmost, hrightmost⟩ : ∃ rightmost, (value.splitOn 44).getLast? = some rightmost :=
      ⟨_, getLast?_eq_some_getLast (splitOn_ne_nil 44 value)⟩
    obtain ⟨hop, hhop, -⟩ := hall rightmost (mem_of_getLast? hrightmost)
    refine ⟨rightmost, hrightmost, ?_⟩
    have hloop := @clientHopLoop_append parseIp trusted directIp _ hall.reverse none []
    rw [append_nil, head?_reverse, hrightmost, Option.bind_some] at hloop
    rw [effectiveClientIp, hpeer, hloop, hhop]
    rfl
  · rw [accessClientIp, heff, hpeer, Option.map_some, hip, hjoin]

end Hops

/-- A proxy. -/
def exampleProxy : IpAddr := .v4 ⟨#[10, 0, 0, 1], rfl⟩

/-- A client behind the proxy. -/
def exampleClient : IpAddr := .v4 ⟨#[198, 51, 100, 9], rfl⟩

/-- Reads the two addresses. -/
def exampleParseIp (x : Bytes) : Option IpAddr :=
  if x = ascii "10.0.0.1" then some exampleProxy
  else if x = ascii "198.51.100.9" then some exampleClient
  else none

/-- A client that says it is the proxy, and leaves a quote open. -/
theorem effective_client_ip_spoofed :
    effectiveClientIp exampleParseIp exampleProxy true
      (some (ascii "10.0.0.1, \", \"198.51.100.9\" , 10.0.0.1")) (some (· == exampleProxy)) =
      exampleClient := by
  have hright : TrustedHops exampleParseIp (· == exampleProxy) [ascii " 10.0.0.1"] := by
    intro rawHop hmem
    rw [mem_singleton.1 hmem]
    exact ⟨exampleProxy, by decide +kernel, by decide⟩
  have hhops := (effective_client_ip_hops exampleParseIp (· == exampleProxy) exampleProxy
    (ascii "10.0.0.1, \"198.51.100.9\" , 10.0.0.1")).2.1 (by decide)
  obtain ⟨hfound, -⟩ := hhops.1 [ascii "10.0.0.1"] (ascii " \"198.51.100.9\" ")
    [ascii " 10.0.0.1"] (by decide +kernel) hright
  exact (hfound exampleClient (by decide +kernel) (by decide)).2 (ascii "10.0.0.1, \"")

end Fluxheim.Server
