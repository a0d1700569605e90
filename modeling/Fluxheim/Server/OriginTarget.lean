import Fluxheim.Http1.TargetGrammar
import Fluxheim.Server.UpstreamRequest

/-!
# The target of an upstream request

`upstreamOriginTarget` turns the target of a request into origin form.  For an absolute URI it
should be the path, or a slash where there is none, with the query.  It is not when the query
follows the authority directly, since the query is then dropped, nor when the path begins with two
slashes, since the result is then no origin form.
-/

namespace Fluxheim

open Ascii Fallible Search List

/-- An absolute URI: the authority goes up to the first slash or question mark. -/
structure AbsoluteText (target scheme authority rest : Bytes) : Prop where
  eq : target = scheme ++ ascii "://" ++ authority ++ rest
  scheme_http : eqIgnoreCase scheme (ascii "http") = true ∨
    eqIgnoreCase scheme (ascii "https") = true
  authority_open : ∀ b ∈ authority, b ≠ 47 ∧ b ≠ 63
  rest_stop : ∀ b ∈ rest.head?, b = 47 ∨ b = 63

section Text

variable {target scheme scheme' authority authority' rest rest' : Bytes}

theorem AbsoluteText.lower_scheme (h : AbsoluteText target scheme authority rest) :
    scheme.map lower = ascii "http" ∨ scheme.map lower = ascii "https" :=
  h.scheme_http.imp eqIgnoreCase_iff.1 eqIgnoreCase_iff.1

theorem AbsoluteText.colon_not_mem (h : AbsoluteText target scheme authority rest) :
    58 ∉ scheme := by
  intro hmem
  have hlow : lower 58 ∈ scheme.map lower := mem_map_of_mem hmem
  rcases h.lower_scheme with hs | hs
  · rw [hs] at hlow
    revert hlow
    decide
  · rw [hs] at hlow
    revert hlow
    decide

/-- A target in origin form is no absolute URI. -/
theorem AbsoluteText.head?_ne (h : AbsoluteText target scheme authority rest) :
    target.head? ≠ some 47 := by
  intro hhead
  have hlow : (scheme.map lower).head? = some (lower 47) := by
    cases scheme with
    | nil => rcases h.lower_scheme with hs | hs <;> cases hs
    | cons b scheme =>
      rw [h.eq] at hhead
      cases hhead
      rfl
  rcases h.lower_scheme with hs | hs
  · rw [hs] at hlow
    revert hlow
    decide
  · rw [hs] at hlow
    revert hlow
    decide

/-- The parts of an absolute URI are determined by its text. -/
theorem AbsoluteText.rest_unique (h : AbsoluteText target scheme authority rest)
    (h' : AbsoluteText target scheme' authority' rest') : rest = rest' := by
  have hsplit : ∀ {s a r : Bytes}, AbsoluteText target s a r →
      splitOnce 58 target = some (s, 47 :: 47 :: (a ++ r)) := by
    intro s a r h
    refine splitOnce_eq_some_iff.2 ⟨?_, h.colon_not_mem⟩
    rw [h.eq]
    simp [ascii]
  have htake : ∀ {s a r : Bytes}, AbsoluteText target s a r →
      (a ++ r).takeWhile (fun b => b ≠ 47 && b ≠ 63) = a := by
    intro s a r h
    refine takeWhile_append_of_stop ?_ ?_
    · intro b hb
      simp [h.authority_open b hb]
    · intro b hb
      rcases h.rest_stop b hb with rfl | rfl <;> rfl
  have heq := (hsplit h).symm.trans (hsplit h')
  have hafter : authority ++ rest = authority' ++ rest' := by
    simp only [Option.some.injEq, Prod.mk.injEq, cons.injEq, true_and] at heq
    exact heq.2
  have hauth : authority = authority' := by
    rw [← htake h, ← htake h', hafter]
  rw [hauth] at hafter
  exact append_cancel_left hafter

end Text

variable {method target path raw scheme : Bytes} {query : Option Bytes}

/-- `http1RequestTarget` accepts a text in origin form. -/
theorem http1RequestTarget_origin (hmet : eqIgnoreCase method (ascii "CONNECT") = false)
    (hby : ∀ b ∈ target, 33 ≤ b ∧ b ≤ 126) (hslash : target.head? = some 47)
    (hslashes : ¬ ascii "//" <+: target) (hsplit : splitQuery target = .ok (path, query)) :
    http1RequestTarget method target = .ok (.origin target path query) := by
  have hgood : ¬ (target = [] ∨ targetHasForbiddenByte target = true) := by
    rintro (rfl | hfor)
    · cases hslash
    · obtain ⟨b, hb, hbad⟩ := any_eq_true.1 hfor
      have hvisible : ∀ b : UInt8, 33 ≤ b ∧ b ≤ 126 → ¬ ((b ≤ 0x20 || 0x7f ≤ b) = true) := by
        apply forall_byte
        decide +kernel
      exact hvisible b (hby b hb) hbad
  have hast : target ≠ ascii "*" := by
    rintro rfl
    revert hslash
    decide
  unfold http1RequestTarget
  rw [if_neg hgood, if_neg hast, if_neg (by rw [hmet]; decide),
    if_neg (by rwa [ isPrefixOf_iff_prefix]), if_pos hslash, hsplit]
  rfl

/-- A target with two slashes in front is refused. -/
theorem not_origin_of_slashes (hslashes : ascii "//" <+: target) :
    http1RequestTarget method target ≠ .ok (.origin raw path query) := by
  intro h
  rcases http1RequestTarget_cases h with ⟨-, -, h⟩ | ⟨-, port, -, -, h⟩ | ⟨-, hnot, -⟩ |
    ⟨-, scheme, afterScheme, -, h⟩
  · cases h
  · cases h
  · exact hnot hslashes
  · obtain ⟨-, authority, path, query, h, -⟩ := parseAbsoluteUri_eq_ok h
    cases h

/-- Two slashes in front of a path with its query are two slashes in front of the path. -/
theorem slashes_prefix_iff : ascii "//" <+: path ++ queryText query ↔ ascii "//" <+: path := by
  constructor
  · intro h
    rcases path with - | ⟨a, - | ⟨b, path⟩⟩
    · cases query with
      | none => simp [queryText, ascii] at h
      | some query => simp [queryText, ascii] at h
    · cases query with
      | none => simpa [queryText] using h
      | some query => simp [queryText, ascii] at h
    · simpa [ascii] using h
  · exact fun h => h.trans (prefix_append _ _)

/-! ### The upstream target -/

/-- The forms of a target that are sent on. -/
def Http1RequestTarget.forwarded : Http1RequestTarget → Bool
  | .origin .. | .absoluteUri .. => true
  | .authority .. | .asterisk => false

/-- The upstream target of a request is in origin form, with the path and the query of `t`. -/
def KeepsTarget (request : NativeHttp1Request) (t : Http1RequestTarget) : Prop :=
  ∃ target, upstreamOriginTarget request = .ok target ∧
    http1RequestTarget request.method target =
      .ok (.origin target (t.path?.getD (ascii "/")) t.query?)

variable {request : NativeHttp1Request}

theorem keepsTarget_origin
    (hparse : http1RequestTarget request.method request.target = .ok (.origin raw path query))
    (hraw : raw = request.target) : KeepsTarget request (.origin raw path query) := by
  refine ⟨request.target, ?_, ?_⟩
  · rw [upstreamOriginTarget, hparse]
    rfl
  · rw [hparse, hraw]
    rfl

variable {authority : Option Bytes}

/-- A path is sent on with its query. -/
theorem upstreamOriginTarget_path (hparse : http1RequestTarget request.method request.target =
      .ok (.absoluteUri raw scheme authority (some path) query)) :
    upstreamOriginTarget request = .ok (path ++ queryText query) := by
  rw [upstreamOriginTarget, hparse]
  cases query with
  | none => simp [queryText]
  | some query => simp [queryText, ascii]

theorem upstreamOriginTarget_no_path (hparse : http1RequestTarget request.method request.target =
      .ok (.absoluteUri raw scheme authority none query)) :
    upstreamOriginTarget request = .ok (ascii "/") := by
  rw [upstreamOriginTarget, hparse]
  rfl

/-- The text of a target that was parsed as an absolute URI. -/
theorem absoluteText_of_parse {path : Option Bytes}
    (hparse : http1RequestTarget method target =
      .ok (.absoluteUri raw scheme authority path query)) :
    (eqIgnoreCase method (ascii "CONNECT") = false ∧
      (∀ p ∈ path, PathText p ∧ p.head? = some 47) ∧ ∀ q ∈ query, QueryText q) ∧
    ∃ name, AbsoluteText target scheme name (path.getD [] ++ queryText query) := by
  rcases http1RequestTarget_cases hparse with ⟨-, -, h⟩ | ⟨-, port, -, -, h⟩ |
    ⟨-, -, -, path, query, -, h⟩ | ⟨hother, scheme', afterScheme, hsplit, h⟩
  · cases h
  · cases h
  · cases h
  · obtain ⟨hscheme, name, path', query', heq, hval, hafter, hpath, hquery⟩ :=
      parseAbsoluteUri_eq_ok h
    cases heq
    refine ⟨⟨hother, hpath, hquery⟩, name, ?_, hscheme, ?_, ?_⟩
    · rw [(splitOnce_eq_some_iff.1 hsplit).1, hafter]
      simp [ascii]
    · intro b hb
      have hclean := (validateHttp1Authority_bytes hval).2 b hb
      constructor <;> rintro rfl <;> revert hclean <;> decide
    · intro b hb
      cases path with
      | some p =>
        have hhead := (hpath p rfl).2
        obtain ⟨rest, rfl⟩ := head?_eq_some_iff.1 hhead
        cases hb
        exact .inl rfl
      | none =>
        cases query with
        | none => cases hb
        | some q =>
          cases hb
          exact .inr rfl

theorem keepsTarget_path_iff (hparse : http1RequestTarget request.method request.target =
      .ok (.absoluteUri raw scheme authority (some path) query)) :
    KeepsTarget request (.absoluteUri raw scheme authority (some path) query) ↔
      ¬ ascii "//" <+: path := by
  obtain ⟨⟨hmet, hpath, hquery⟩, name, htext⟩ := absoluteText_of_parse hparse
  obtain ⟨hpathText, hhead⟩ := hpath path rfl
  have hout := upstreamOriginTarget_path hparse
  constructor
  · rintro ⟨target, ht, horigin⟩ hslashes
    rw [hout] at ht
    cases ht
    exact not_origin_of_slashes (slashes_prefix_iff.2 hslashes) horigin
  · intro hslashes
    refine ⟨_, hout, http1RequestTarget_origin hmet ?_ ?_ ?_ ?_⟩
    · -- every byte of the result was one of the target
      intro b hb
      refine (http1RequestTarget_bytes hparse).2 b ?_
      rw [htext.eq]
      exact mem_append_right _ hb
    · rw [head?_append, hhead]
      rfl
    · exact fun h => hslashes (slashes_prefix_iff.1 h)
    · exact splitQuery_eq_ok_iff.2 ⟨rfl, hpathText, hquery⟩

theorem keepsTarget_no_path_iff (hparse : http1RequestTarget request.method request.target =
      .ok (.absoluteUri raw scheme authority none query)) :
    KeepsTarget request (.absoluteUri raw scheme authority none query) ↔ query = none := by
  obtain ⟨⟨hmet, -, -⟩, -⟩ := absoluteText_of_parse hparse
  have hout := upstreamOriginTarget_no_path hparse
  have hroot : http1RequestTarget request.method (ascii "/") =
      .ok (.origin (ascii "/") (ascii "/") none) :=
    http1RequestTarget_origin hmet (by decide +kernel) (by decide) (by decide +kernel)
      (by decide +kernel)
  constructor
  · rintro ⟨target, ht, horigin⟩
    rw [hout] at ht
    cases ht
    rw [hroot] at horigin
    cases horigin
    rfl
  · rintro rfl
    exact ⟨_, hout, hroot⟩

/-- **The upstream target of a request in origin or absolute form keeps its path and query exactly
if the target is not an absolute URI that goes on after its authority with a query or with two
slashes.** -/
theorem upstream_origin_target_iff (request : NativeHttp1Request) (t : Http1RequestTarget)
    (hparse : http1RequestTarget request.method request.target = .ok t)
    (hform : t.forwarded = true) :
    KeepsTarget request t ↔ ¬ ∃ scheme authority rest,
      AbsoluteText request.target scheme authority rest ∧
        (rest.head? = some 63 ∨ ascii "//" <+: rest) := by
  cases t with
  | authority raw port => cases hform
  | asterisk => cases hform
  | origin raw path query =>
    obtain ⟨hraw, hhead⟩ : raw = request.target ∧ request.target.head? = some 47 := by
      rcases http1RequestTarget_cases hparse with ⟨-, -, h⟩ | ⟨-, port, -, -, h⟩ |
        ⟨-, -, hhead, path, query, -, h⟩ | ⟨-, scheme, afterScheme, -, h⟩
      · cases h
      · cases h
      · cases h
        exact ⟨rfl, hhead⟩
      · obtain ⟨-, authority, path, query, h, -⟩ := parseAbsoluteUri_eq_ok h
        cases h
    refine iff_of_true (keepsTarget_origin hparse hraw) ?_
    rintro ⟨scheme, authority, rest, htext, -⟩
    exact htext.head?_ne hhead
  | absoluteUri raw scheme authority path query =>
    obtain ⟨⟨-, hpath, -⟩, name, htext⟩ := absoluteText_of_parse hparse
    have hrest : (∃ scheme authority rest, AbsoluteText request.target scheme authority rest ∧
        (rest.head? = some 63 ∨ ascii "//" <+: rest)) ↔
        ((path.getD [] ++ queryText query).head? = some 63 ∨
          ascii "//" <+: path.getD [] ++ queryText query) := by
      constructor
      · rintro ⟨scheme', authority', rest, h, hbad⟩
        rwa [htext.rest_unique h]
      · exact fun hbad => ⟨scheme, name, _, htext, hbad⟩
    rw [hrest]
    cases path with
    | none =>
      rw [keepsTarget_no_path_iff hparse]
      cases query <;> simp [queryText, ascii]
    | some path =>
      have hhead := (hpath path rfl).2
      rw [keepsTarget_path_iff hparse, Option.getD_some, slashes_prefix_iff, head?_append, hhead]
      simp

/-- A request for a target. -/
def requestFor (target : String) : NativeHttp1Request :=
  ⟨ascii "GET", ascii target, .http11, [], []⟩

theorem upstream_origin_target_iff_path :
    KeepsTarget (requestFor "http://a/b?c") (.absoluteUri (ascii "http://a/b?c") (ascii "http")
      (some (ascii "a")) (some (ascii "/b")) (some (ascii "c"))) := by
  refine (upstream_origin_target_iff (requestFor "http://a/b?c") _ (by decide +kernel) rfl).2 ?_
  rintro ⟨scheme, authority, rest, htext, hbad⟩
  have hpart : AbsoluteText (requestFor "http://a/b?c").target (ascii "http") (ascii "a")
      (ascii "/b?c") :=
    ⟨by decide +kernel, .inl (by decide +kernel), by decide +kernel, by decide +kernel⟩
  obtain rfl := htext.rest_unique hpart
  revert hbad
  decide +kernel

/-- The query of `http://a?c` is dropped, and `http://a//b` gives no target in origin form. -/
theorem upstream_origin_target_drops_query :
    (upstreamOriginTarget (requestFor "http://a?c") = .ok (ascii "/") ∧
      http1RequestTarget (ascii "GET") (ascii "http://a?c") = .ok (.absoluteUri
        (ascii "http://a?c") (ascii "http") (some (ascii "a")) none (some (ascii "c"))) ∧
      http1RequestTarget (ascii "GET") (ascii "/") = .ok (.origin (ascii "/") (ascii "/") none)) ∧
    (upstreamOriginTarget (requestFor "http://a//b") = .ok (ascii "//b") ∧
      http1RequestTarget (ascii "GET") (ascii "http://a//b") = .ok (.absoluteUri
        (ascii "http://a//b") (ascii "http") (some (ascii "a")) (some (ascii "//b")) none) ∧
      http1RequestTarget (ascii "GET") (ascii "//b") = .error .invalidRequestTarget) := by
  decide +kernel

end Fluxheim
