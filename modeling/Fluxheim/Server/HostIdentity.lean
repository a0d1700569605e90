import Fluxheim.Http1.TargetGrammar
import Fluxheim.Server.UpstreamParse

/-!
# One host for every component

An HTTP/1.1 head that is accepted names one host: in its only `Host` field, in its target if that
has an authority, and in the request that the handler is given.
-/

namespace Fluxheim

open Ascii Fallible Search

/-- A host that was read before allows no other; otherwise there is one at most, and it is a valid
authority. -/
theorem optionalHostLoop_eq_ok {headers : List Http1Header} {before after : Option Bytes}
    (h : optionalHostLoop before headers = .ok after) :
    (fieldsNamed "host" headers = [] ∧ after = before) ∨
      before = none ∧ ∃ header, fieldsNamed "host" headers = [header] ∧
        after = some header.value ∧ validateHttp1Authority header.value = .ok () := by
  induction headers generalizing before with
  | nil =>
    cases h
    exact .inl ⟨rfl, rfl⟩
  | cons header headers ih =>
    rw [optionalHostLoop] at h
    by_cases hname : header.named "host" = true
    · split_ifs at h with hpre
      rw [header.value_trimmed] at h
      split at h
      case h_1 => cases h
      case h_2 hval =>
        rcases ih h with ⟨hnone, rfl⟩ | ⟨hsome, -⟩
        · rw [fieldsNamed_cons_of_named hname, hnone]
          exact .inr ⟨by simpa using hpre, header, rfl, rfl, hval⟩
        · cases hsome
    · rw [if_neg hname] at h
      rw [fieldsNamed_cons_of_not_named hname]
      exact ih h

theorem http1OptionalHost_eq_ok {headers : List Http1Header} {host : Bytes}
    (h : http1OptionalHost headers = .ok (some host)) :
    ∃ header, fieldsNamed "host" headers = [header] ∧ header.value = host ∧
      validateHttp1Authority host = .ok () := by
  rcases optionalHostLoop_eq_ok h with ⟨-, hhost⟩ | ⟨-, header, hfields, hhost, hval⟩
  · cases hhost
  · cases hhost
    exact ⟨header, hfields, rfl, hval⟩

/-- The effective authority is that of the target, or else the host; the two agree up to case. -/
theorem authorityOf_eq_ok {host authority : Bytes} {t : Http1RequestTarget}
    (h : RawHttp1RequestHead.authorityOf (some host) t = .ok authority) :
    eqIgnoreCase authority host = true ∧ (∀ named ∈ t.authority?, named = authority) ∧
      (t.authority? = none → authority = host) := by
  have hcom : ∀ {named : Bytes}, (do
        validateHttp1Authority named
        if eqIgnoreCase named host then .ok named else .error .conflictingAuthority) =
          (.ok authority : Except Http1ParseError Bytes) →
      named = authority ∧ eqIgnoreCase named host = true := by
    intro named h
    obtain ⟨⟨⟩, -, h⟩ := bind_eq_ok.1 h
    split_ifs at h with hsame
    cases h
    exact ⟨rfl, hsame⟩
  cases t with
  | origin raw path query =>
    cases h
    exact ⟨eqIgnoreCase_refl _, by rintro _ ⟨⟩, fun _ => rfl⟩
  | asterisk =>
    cases h
    exact ⟨eqIgnoreCase_refl _, by rintro _ ⟨⟩, fun _ => rfl⟩
  | authority raw port =>
    obtain ⟨rfl, hsame⟩ := hcom h
    exact ⟨hsame, by rintro _ ⟨rfl⟩; rfl, by rintro ⟨⟩⟩
  | absoluteUri raw scheme named path query =>
    cases named with
    | none => cases h
    | some named =>
      obtain ⟨rfl, hsame⟩ := hcom h
      exact ⟨hsame, by rintro _ ⟨rfl⟩; rfl, by rintro ⟨⟩⟩

/-- The effective authority of a head that has a host. -/
theorem optionalAuthority_eq_ok {head : RawHttp1RequestHead} {t : Http1RequestTarget} {host : Bytes}
    {eff : Option Bytes} (htarget : http1RequestTarget head.method head.target = .ok t)
    (hhost : http1OptionalHost head.headers = .ok (some host))
    (h : head.optionalAuthority = .ok eff) (hver : head.version = .http11) :
    ∃ authority, eff = some authority ∧
      RawHttp1RequestHead.authorityOf (some host) t = .ok authority := by
  have heff : head.effectiveAuthority = RawHttp1RequestHead.authorityOf (some host) t := by
    rw [RawHttp1RequestHead.effectiveAuthority, htarget, ok_bind, hhost, ok_bind]
  rw [RawHttp1RequestHead.optionalAuthority, heff, hver] at h
  split at h
  case h_1 authority hauth =>
    cases h
    exact ⟨authority, rfl, hauth⟩
  case h_2 => cases h
  case h_3 => cases h

/-- The request that the handler is given has the effective authority as its only host. -/
theorem host_of_ownedHeaders (headers : List Http1Header) (auth : Bytes) :
    (ownedHeaders headers (some auth)).filter (fun field => nameIs field.1 "host") =
      [(ascii "host", auth)] := by
  have hother : ((headers.filter fun header => ¬ header.named "host").map
      fun header => (header.name, header.value)).filter (fun field => nameIs field.1 "host") =
        [] := by
    rw [List.filter_eq_nil_iff]
    intro field hfield
    obtain ⟨header, hheader, rfl⟩ := List.mem_map.1 hfield
    show ¬ header.named "host" = true
    simpa using (List.mem_filter.1 hheader).2
  rw [ownedHeaders, List.filter_append, hother]
  rfl

/-- **An accepted HTTP/1.1 head names one host.**  It has one `Host` field with a valid authority,
the authority of its target, if it has one, is the same up to case, and the request given to the
handler has one `host` header, with the effective authority: the one that the upstream client
reads. -/
theorem host_identity (input : Bytes) (limits : Http1HeadLimits) (v : ValidatedHttp1RequestHead)
    (hparse : parseHttp1RequestHead input limits = .ok (some v))
    (hversion : v.head.version = .http11) :
    ∃ header authority,
      v.head.headers.filter (fun header => header.named "host") = [header] ∧
      validateHttp1Authority header.value = .ok () ∧
      v.validation.effectiveAuthority = some authority ∧
      eqIgnoreCase authority header.value = true ∧
      http1RequestTarget (ownedRequestFromHead v).method (ownedRequestFromHead v).target =
        .ok v.validation.requestTarget ∧
      (∀ named ∈ v.validation.requestTarget.authority?,
        named = authority ∧ eqIgnoreCase named header.value = true) ∧
      (v.validation.requestTarget.authority? = none → authority = header.value) ∧
      (ownedRequestFromHead v).headers.filter (fun field => nameIs field.1 "host") =
        [(ascii "host", authority)] ∧
      requestHost (ownedRequestFromHead v) = some authority := by
  have hvalidation : v.head.validateMessage = .ok v.validation := by
    obtain ⟨raw, -, hparse⟩ := bind_eq_ok.1 hparse
    cases raw with
    | none => cases hparse
    | some head =>
      obtain ⟨validation, hvalidation, hparse⟩ := bind_eq_ok.1 hparse
      cases hparse
      exact hvalidation
  obtain ⟨hreq, htarget, hopt, -, -⟩ := validateMessage_eq_ok_iff.1 hvalidation
  obtain ⟨host, hreq⟩ := hreq hversion
  have hhost : http1OptionalHost v.head.headers = .ok (some host) := by
    obtain ⟨found, hfound, hsome⟩ := bind_eq_ok.1 hreq
    rw [hfound, okOr_eq_ok.1 hsome]
  obtain ⟨header, hfields, rfl, hval⟩ := http1OptionalHost_eq_ok hhost
  obtain ⟨authority, heff, hauth⟩ :=
    optionalAuthority_eq_ok htarget hhost hopt hversion
  obtain ⟨hsame, hnamed, hhostOnly⟩ := authorityOf_eq_ok hauth
  refine ⟨header, authority, hfields, hval, heff, hsame, htarget, ?_, hhostOnly, ?_, ?_⟩
  · intro named hmem
    obtain rfl := hnamed named hmem
    exact ⟨rfl, hsame⟩
  · rw [ownedRequestFromHead, heff]
    exact host_of_ownedHeaders _ _
  · rw [← heff]
    exact requestHost_owned v []

/-- An absolute URI with another spelling of the host. -/
theorem host_identity_absolute :
    ∃ v, parseHttp1RequestHead (ascii "GET http://B/ HTTP/1.1\r\nHost: b\r\n\r\n") .default =
        .ok (some v) ∧
      (ownedRequestFromHead v).headers.filter (fun field => nameIs field.1 "host") =
        [(ascii "host", ascii "B")] := by
  have hparse : parseHttp1RequestHead (ascii "GET http://B/ HTTP/1.1\r\nHost: b\r\n\r\n")
      .default = .ok (some ⟨⟨ascii "GET", ascii "http://B/", .http11,
        [⟨ascii "Host", ascii "b", by decide +kernel, by decide +kernel, by decide +kernel⟩], 35⟩,
        ⟨.absoluteUri (ascii "http://B/") (ascii "http") (some (ascii "B")) (some (ascii "/")) none,
          .noBody, .persistent, some (ascii "B")⟩⟩) := by
    decide +kernel
  obtain ⟨header, auth, -, -, heff, -, -, -, -, hown, -⟩ :=
    host_identity _ _ _ hparse rfl
  cases heff
  exact ⟨_, hparse, hown⟩

end Fluxheim
