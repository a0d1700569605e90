import Fluxheim.Http1.Target

/-!
# The grammar of request targets

What `http1RequestTarget` accepts, as text: the parts of a parsed target put together again are the
target, and each part has its form.
-/

namespace Fluxheim

open Ascii Fallible Search List

/-- Allowed bytes and complete percent escapes. -/
inductive Escaped (allowed : UInt8 → Prop) : Bytes → Prop
  | nil : Escaped allowed []
  | byte {b : UInt8} {x : Bytes} : allowed b → b ≠ 37 → Escaped allowed x → Escaped allowed (b :: x)
  | escape {a b : UInt8} {x : Bytes} : isHexDigit a = true → isHexDigit b = true →
      Escaped allowed x → Escaped allowed (37 :: a :: b :: x)

/-- The bytes of a path, or of a query. -/
def UriByte (query : Bool) (b : UInt8) : Prop := uriComponentByteAllowed b query = true

variable {x path ds target : Bytes}

theorem uriComponentValid_iff {query : Bool} :
    uriComponentValid query x = true ↔ Escaped (UriByte query) x := by
  constructor
  · intro h
    fun_induction uriComponentValid query x with
    | case1 => exact .nil
    | case2 a b x ih =>
      simp only [Bool.and_eq_true] at h
      exact .escape h.1.1 h.1.2 (ih h.2)
    | case3 b x _ ih =>
      simp only [Bool.and_eq_true, decide_eq_true_eq] at h
      exact .byte h.1.2 h.1.1 (ih h.2)
  · intro h
    induction h with
    | nil => rfl
    | byte hb hne _ ih =>
      rw [uriComponentValid]
      · simp [hne, ih, show uriComponentByteAllowed _ query = true from hb]
      · rintro _ _ _ rfl
        exact absurd rfl hne
    | escape ha hb _ ih => simp [uriComponentValid, ha, hb, ih]

/-- A byte that is not allowed and no part of an escape does not occur. -/
theorem Escaped.not_mem {allowed : UInt8 → Prop} {c : UInt8} (h : Escaped allowed x)
    (hallow : ¬ allowed c) (hne : c ≠ 37) (hhex : isHexDigit c = false) : c ∉ x := by
  have hdig : ∀ b, isHexDigit b = true → c ≠ b := by
    rintro b hb rfl
    rw [hhex] at hb
    cases hb
  induction h with
  | nil => exact not_mem_nil
  | byte hb _ _ ih =>
    rw [mem_cons, not_or]
    exact ⟨fun heq => hallow (heq ▸ hb), ih⟩
  | escape ha hb _ ih =>
    simp only [mem_cons, not_or]
    exact ⟨hne, hdig _ ha, hdig _ hb, ih⟩

/-- The text of a path: no question mark and no fragment. -/
structure PathText (path : Bytes) : Prop where
  ne_nil : path ≠ []
  escaped : Escaped (UriByte false) path
  no_query : 63 ∉ path
  no_fragment : 35 ∉ path

/-- The text of a query. -/
structure QueryText (query : Bytes) : Prop where
  escaped : Escaped (UriByte true) query
  no_fragment : 35 ∉ query

theorem validatePath_eq_ok_iff : validatePath path = .ok () ↔ PathText path := by
  unfold validatePath
  constructor
  · intro h
    split_ifs at h with hval
    have hescape := uriComponentValid_iff.1 hval.2
    exact ⟨hval.1, hescape, hescape.not_mem (by simp [UriByte]; decide) (by decide) (by decide),
      hescape.not_mem (by simp [UriByte]; decide) (by decide) (by decide)⟩
  · intro h
    rw [if_pos ⟨h.ne_nil, uriComponentValid_iff.2 h.escaped⟩]

theorem validateQuery_eq_ok_iff {query : Bytes} :
    validateQuery query = .ok () ↔ QueryText query := by
  unfold validateQuery
  constructor
  · intro h
    split_ifs at h with hval
    have hescape := uriComponentValid_iff.1 hval
    exact ⟨hescape, hescape.not_mem (by simp [UriByte]; decide) (by decide) (by decide)⟩
  · intro h
    rw [if_pos (uriComponentValid_iff.2 h.escaped)]

/-- A query behind its question mark, or nothing. -/
def queryText : Option Bytes → Bytes
  | none => []
  | some query => 63 :: query

theorem splitQuery_eq_ok_iff {value : Bytes} {query : Option Bytes} :
    splitQuery value = .ok (path, query) ↔
      value = path ++ queryText query ∧ PathText path ∧ ∀ q ∈ query, QueryText q := by
  unfold splitQuery
  constructor
  · intro h
    cases hsplit : splitOnce 63 value with
    | none =>
      rw [hsplit] at h
      obtain ⟨⟨⟩, hpath, h⟩ := bind_eq_ok.1 h
      cases h
      exact ⟨(append_nil _).symm, validatePath_eq_ok_iff.1 hpath, by simp⟩
    | some ps =>
      rw [hsplit] at h
      obtain ⟨⟨⟩, hpath, h⟩ := bind_eq_ok.1 h
      obtain ⟨⟨⟩, hquery, h⟩ := bind_eq_ok.1 h
      cases h
      refine ⟨(splitOnce_eq_some_iff.1 hsplit).1, validatePath_eq_ok_iff.1 hpath, ?_⟩
      rintro q ⟨rfl⟩
      exact validateQuery_eq_ok_iff.1 hquery
  · rintro ⟨rfl, hpath, hquery⟩
    cases query with
    | none =>
      rw [queryText, append_nil, splitOnce_eq_none_iff.2 hpath.no_query]
      rw [validatePath_eq_ok_iff.2 hpath, ok_bind]
    | some query =>
      rw [queryText, splitOnce_eq_some_iff.2 ⟨rfl, hpath.no_query⟩]
      dsimp only
      rw [validatePath_eq_ok_iff.2 hpath, validateQuery_eq_ok_iff.2 (hquery query rfl)]
      rfl

theorem splitPathAndQuery_eq_ok {path query : Option Bytes}
    (h : splitPathAndQuery x = .ok (path, query)) :
    x = path.getD [] ++ queryText query ∧ (∀ p ∈ path, PathText p) ∧
      ∀ q ∈ query, QueryText q := by
  unfold splitPathAndQuery at h
  split at h
  · cases h
    simp [queryText]
  · obtain ⟨⟨⟩, hquery, h⟩ := bind_eq_ok.1 h
    cases h
    refine ⟨rfl, by simp, ?_⟩
    rintro q ⟨rfl⟩
    exact validateQuery_eq_ok_iff.1 hquery
  · obtain ⟨⟨p, q⟩, hsplit, h⟩ := bind_eq_ok.1 h
    cases h
    obtain ⟨hx, hpath, hquery⟩ := splitQuery_eq_ok_iff.1 hsplit
    refine ⟨hx, ?_, hquery⟩
    rintro p ⟨rfl⟩
    exact hpath

/-! ### Authorities -/

/-- The digits of a port that fits 16 bits. -/
structure PortText (digits : Bytes) (port : ℕ) : Prop where
  ne_nil : digits ≠ []
  all_digits : ∀ b ∈ digits, isDigit b = true
  value_eq : decimalValue digits = port
  fits : port < 2 ^ 16

/-- A port behind its colon, or nothing. -/
def portText : Option Bytes → Bytes
  | none => []
  | some digits => 58 :: digits

/-- A host: a name, or an IPv6 address in brackets. -/
def HostText (host : Bytes) : Prop :=
  hostNameValid host = true ∨
    ∃ address, host = 91 :: address ++ [93] ∧ ipv6AddrValid address = true

/-- The text of an authority, in its parts.  There is no user information. -/
structure AuthorityOf (value host : Bytes) (digits : Option Bytes) : Prop where
  eq : value = host ++ portText digits
  no_userinfo : 64 ∉ value
  host_text : HostText host
  port_text : ∀ x ∈ digits, ∃ port, PortText x port

theorem validateAuthorityPort_eq_ok (h : validateAuthorityPort ds = .ok ()) :
    ∃ port, PortText ds port := by
  unfold validateAuthorityPort at h
  split_ifs at h with hbad
  rw [not_or, not_not] at hbad
  rw [parseUnsigned_of_isDigit hbad.1 hbad.2] at h
  split_ifs at h with hfits
  exact ⟨_, hbad.1, all_eq_true.1 hbad.2, rfl, Nat.lt_succ_of_le hfits⟩

variable {value : Bytes} {port : ℕ}

theorem PortText.parseUnsigned_eq (h : PortText ds port) : parseUnsigned 65535 ds = some port := by
  rw [parseUnsigned_of_isDigit h.ne_nil (all_eq_true.2 h.all_digits), h.value_eq,
    if_pos (Nat.le_of_lt_succ h.fits)]

theorem validateBracketedAuthority_eq_ok {bracket : Bytes}
    (h : validateBracketedAuthority bracket = .ok ()) :
    ∃ addr ds, bracket = addr ++ 93 :: portText ds ∧ 93 ∉ addr ∧
      ipv6AddrValid addr = true ∧ ∀ x ∈ ds, ∃ port, PortText x port := by
  unfold validateBracketedAuthority at h
  cases hsplit : splitOnce 93 bracket with
  | none =>
    rw [hsplit] at h
    cases h
  | some ps =>
    obtain ⟨addr, suffix⟩ := ps
    rw [hsplit] at h
    dsimp only at h
    obtain ⟨rfl, hclose⟩ := splitOnce_eq_some_iff.1 hsplit
    split_ifs at h with hadd
    split at h
    · exact ⟨addr, none, rfl, hclose, hadd, by simp⟩
    · rename_i port
      refine ⟨addr, some port, rfl, hclose, hadd, ?_⟩
      rintro x ⟨rfl⟩
      exact validateAuthorityPort_eq_ok h
    · cases h

theorem validateHttp1Authority_cases (h : validateHttp1Authority value = .ok ()) :
    (∃ addr ds, value = 91 :: addr ++ 93 :: portText ds ∧ 93 ∉ addr ∧
        ipv6AddrValid addr = true ∧ ∀ x ∈ ds, ∃ port, PortText x port) ∨
      (value.head? ≠ some 91 ∧ ∃ host ds, value = host ++ portText ds ∧ 58 ∉ host ∧
        hostNameValid host = true ∧ ∀ x ∈ ds, ∃ port, PortText x port) := by
  unfold validateHttp1Authority at h
  by_cases hbad : value = [] ∨ value.any authorityForbidden
  · rw [if_pos hbad] at h
    cases h
  rw [if_neg hbad] at h
  split at h
  case h_1 bracket =>
    obtain ⟨addr, ds, rfl, hbrac⟩ := validateBracketedAuthority_eq_ok h
    exact .inl ⟨addr, ds, rfl, hbrac⟩
  case h_2 hopen =>
    by_cases hbracket : value.contains 91 ∨ value.contains 93 ∨ 1 < value.count 58
    · rw [if_pos hbracket] at h
      cases h
    rw [if_neg hbracket] at h
    refine .inr ⟨?_, ?_⟩
    · intro hhead
      obtain ⟨rest, hrest⟩ := head?_eq_some_iff.1 hhead
      exact hopen rest hrest
    · split at h
      case h_1 hsplit =>
        split_ifs at h with hname
        exact ⟨value, none, (append_nil _).symm, splitOnce_eq_none_iff.1 hsplit, hname,
          by simp⟩
      case h_2 host port hsplit =>
        split_ifs at h with hname
        obtain ⟨rfl, hcolon⟩ := splitOnce_eq_some_iff.1 hsplit
        refine ⟨host, some port, rfl, hcolon, hname, ?_⟩
        rintro x ⟨rfl⟩
        exact validateAuthorityPort_eq_ok h

theorem no_userinfo_of_valid (h : validateHttp1Authority value = .ok ()) : 64 ∉ value := by
  intro hmem
  have := (validateHttp1Authority_bytes h).2 64 hmem
  revert this
  decide

theorem validateHttp1Authority_eq_ok (h : validateHttp1Authority value = .ok ()) :
    ∃ host digits, AuthorityOf value host digits := by
  rcases validateHttp1Authority_cases h with
    ⟨addr, digits, heq, -, hadd, hport⟩ | ⟨-, host, digits, heq, -, hname, hport⟩
  · exact ⟨91 :: addr ++ [93], digits, by simpa using heq, no_userinfo_of_valid h,
      .inr ⟨addr, rfl, hadd⟩, hport⟩
  · exact ⟨host, digits, heq, no_userinfo_of_valid h, .inl hname, hport⟩

/-- The last test of the authority form. -/
theorem portText_of_ok {host : Bytes} {found : Option Bytes}
    (hall : ∀ x ∈ found, ∃ p, PortText x p) (hfound : found = some ds)
    (h : (if host = [] ∨ ds = [] then .error .invalidRequestTarget
      else okOr (parseUnsigned 65535 ds) .invalidRequestTarget :
        Except Http1ParseError ℕ) = .ok port) :
    host ≠ [] ∧ PortText ds port := by
  split_ifs at h with hempty
  obtain ⟨p, hp⟩ := hall ds hfound
  rw [hp.parseUnsigned_eq] at h
  cases h
  exact ⟨fun hhost => hempty (.inl hhost), hp⟩

/-- The authority form has a host and a port. -/
theorem authorityFormPort_eq_ok
    (hform : authorityFormPort value = .ok port) (hval : validateHttp1Authority value = .ok ()) :
    ∃ host ds, host ≠ [] ∧ AuthorityOf value host (some ds) ∧ PortText ds port := by
  have huser := no_userinfo_of_valid hval
  unfold authorityFormPort at hform
  rcases validateHttp1Authority_cases hval with
    ⟨address, found, rfl, hclose, hadd, hall⟩ | ⟨hhead, name, found, rfl, hcolon, hname, hall⟩
  · have hcut : splitOnce 93 (91 :: address ++ 93 :: portText found) =
        some (91 :: address, portText found) := by
      refine splitOnce_eq_some_iff.2 ⟨rfl, ?_⟩
      rw [mem_cons, not_or]
      exact ⟨by decide, hclose⟩
    rw [hcut] at hform
    cases found with
    | none => cases hform
    | some ds =>
      obtain ⟨hhost, htext⟩ := portText_of_ok hall rfl hform
      exact ⟨_, ds, hhost, ⟨by simp [portText], huser, .inr ⟨address, rfl, hadd⟩, hall⟩,
        htext⟩
  · rw [if_neg hhead] at hform
    cases found with
    | none =>
      have hnone : splitOnce 58 (name ++ portText none) = none := by
        rw [portText, append_nil]
        exact splitOnce_eq_none_iff.2 hcolon
      rw [hnone] at hform
      cases hform
    | some ds =>
      have hcut : splitOnce 58 (name ++ portText (some ds)) = some (name, ds) :=
        splitOnce_eq_some_iff.2 ⟨rfl, hcolon⟩
      rw [hcut] at hform
      dsimp only at hform
      by_cases hsecond : ds.contains 58
      · rw [if_pos hsecond] at hform
        cases hform
      rw [if_neg hsecond] at hform
      obtain ⟨hhost, htext⟩ := portText_of_ok hall rfl hform
      exact ⟨_, ds, hhost, ⟨rfl, huser, .inl hname, hall⟩, htext⟩

theorem http1RequestTarget_cases {method : Bytes} {t : Http1RequestTarget}
    (h : http1RequestTarget method target = .ok t) :
    (target = ascii "*" ∧ eqIgnoreCase method (ascii "OPTIONS") = true ∧ t = .asterisk) ∨
    (eqIgnoreCase method (ascii "CONNECT") = true ∧ ∃ port, authorityFormPort target = .ok port ∧
      validateHttp1Authority target = .ok () ∧ t = .authority target port) ∨
    (eqIgnoreCase method (ascii "CONNECT") = false ∧ ¬ ascii "//" <+: target ∧
      target.head? = some 47 ∧ ∃ path query, splitQuery target = .ok (path, query) ∧
        t = .origin target path query) ∨
    (eqIgnoreCase method (ascii "CONNECT") = false ∧ ∃ scheme afterScheme,
      splitOnce 58 target = some (scheme, afterScheme) ∧
        parseAbsoluteUri target scheme afterScheme = .ok t) := by
  unfold http1RequestTarget at h
  by_cases hbad : target = [] ∨ targetHasForbiddenByte target
  · rw [if_pos hbad] at h
    cases h
  by_cases hast : target = ascii "*"
  · split_ifs at h with hopts
    cases h
    exact .inl ⟨hast, hopts, rfl⟩
  by_cases hcon : eqIgnoreCase method (ascii "CONNECT") = true
  · split_ifs at h
    obtain ⟨port, hport, h⟩ := bind_eq_ok.1 h
    obtain ⟨⟨⟩, hval, h⟩ := bind_eq_ok.1 h
    cases h
    exact .inr (.inl ⟨hcon, port, hport, hval, rfl⟩)
  have hother := Bool.eq_false_of_not_eq_true hcon
  split_ifs at h with hslashes hslash
  · obtain ⟨⟨path, query⟩, hsplit, h⟩ := bind_eq_ok.1 h
    cases h
    exact .inr (.inr (.inl ⟨hother, by rwa [List.isPrefixOf_iff_prefix] at hslashes, hslash, path,
      query, hsplit, rfl⟩))
  · split at h
    case h_1 scheme afterScheme hsplit =>
      exact .inr (.inr (.inr ⟨hother, scheme, afterScheme, hsplit, h⟩))
    case h_2 => cases h

/-- An absolute URI with a path has it behind a slash. -/
theorem parseAbsoluteUri_eq_ok {scheme afterScheme : Bytes} {t : Http1RequestTarget}
    (h : parseAbsoluteUri target scheme afterScheme = .ok t) :
    (eqIgnoreCase scheme (ascii "http") = true ∨ eqIgnoreCase scheme (ascii "https") = true) ∧
    ∃ auth path query, t = .absoluteUri target scheme (some auth) path query ∧
      validateHttp1Authority auth = .ok () ∧
      afterScheme = ascii "//" ++ auth ++ path.getD [] ++ queryText query ∧
      (∀ p ∈ path, PathText p ∧ p.head? = some 47) ∧ ∀ q ∈ query, QueryText q := by
  unfold parseAbsoluteUri at h
  split_ifs at h with hscheme
  rw [not_and_or, not_not, not_not] at hscheme
  refine ⟨hscheme, ?_⟩
  split at h
  case h_2 => cases h
  case h_1 afterSlashes =>
    obtain ⟨⟨⟩, hval, h⟩ := bind_eq_ok.1 h
    obtain ⟨⟨path, query⟩, hsplit, h⟩ := bind_eq_ok.1 h
    cases h
    obtain ⟨hrest, hpath, hquery⟩ := splitPathAndQuery_eq_ok hsplit
    refine ⟨_, path, query, rfl, hval, ?_, ?_, hquery⟩
    · rw [append_assoc, ← hrest, append_assoc, drop_length_takeWhile, takeWhile_append_dropWhile]
      rfl
    · rintro p ⟨rfl⟩
      refine ⟨hpath p rfl, ?_⟩
      -- the path begins where the authority stopped, and not at a question mark
      have htext := hpath p rfl
      obtain ⟨b, rest, rfl⟩ := exists_cons_of_ne_nil htext.ne_nil
      rw [drop_length_takeWhile] at hrest
      have hstop := head?_dropWhile_eq_false (a := b) (p := fun b => b ≠ 47 && b ≠ 63)
        (x := afterSlashes) (by rw [hrest]; rfl)
      have hquestion : b ≠ 63 := fun hb => htext.no_query (hb ▸ mem_cons_self)
      simp only [ne_eq, Bool.and_eq_false_iff, decide_eq_false_iff_not, not_not] at hstop
      rw [head?_cons, hstop.resolve_right hquestion]

namespace Http1RequestTarget

/-- The text that a parsed target stands for. -/
def text : Http1RequestTarget → Bytes
  | .origin _ path query => path ++ queryText query
  | .absoluteUri _ scheme hostPort path query =>
    scheme ++ ascii "://" ++ hostPort.getD [] ++ path.getD [] ++ queryText query
  | .authority raw _ => raw
  | .asterisk => ascii "*"

/-- The path of a target. -/
def path? : Http1RequestTarget → Option Bytes
  | .origin _ path _ => some path
  | .absoluteUri _ _ _ path _ => path
  | .authority .. | .asterisk => none

/-- Its query. -/
def query? : Http1RequestTarget → Option Bytes
  | .origin _ _ query | .absoluteUri _ _ _ _ query => query
  | .authority .. | .asterisk => none

/-- Its authority. -/
def authority? : Http1RequestTarget → Option Bytes
  | .absoluteUri _ _ hostPort _ _ => hostPort
  | .authority raw _ => some raw
  | .origin .. | .asterisk => none

end Http1RequestTarget

/-- **The parts of an accepted target are the target**: put together they give the text that was
parsed, its path and query have only allowed characters and complete escapes and no fragment, its
authority has no user information and a port of 16 bits or none, and `CONNECT` has a host and a
port. -/
theorem request_target_reassembled (method target : Bytes) (t : Http1RequestTarget)
    (h : http1RequestTarget method target = .ok t) :
    t.text = target ∧ (∀ path ∈ t.path?, PathText path) ∧ (∀ query ∈ t.query?, QueryText query) ∧
      (∀ authority ∈ t.authority?, ∃ host digits, AuthorityOf authority host digits) ∧
      (eqIgnoreCase method (ascii "CONNECT") = true → ∃ host digits port, host ≠ [] ∧
        t = .authority target port ∧ AuthorityOf target host (some digits) ∧
        PortText digits port) := by
  rcases http1RequestTarget_cases h with ⟨rfl, hopts, rfl⟩ |
    ⟨hcon, port, hport, hval, rfl⟩ | ⟨hother, -, -, path, query, hsplit, rfl⟩ |
    ⟨hother, scheme, afterScheme, hsplit, habs⟩
  · refine ⟨rfl, by rintro _ ⟨⟩, by rintro _ ⟨⟩, by rintro _ ⟨⟩, fun hcon => ?_⟩
    rw [eqIgnoreCase_iff] at hopts hcon
    exact absurd (hopts.symm.trans hcon) (by decide)
  · obtain ⟨host, digits, hhost, hauth, htext⟩ := authorityFormPort_eq_ok hport hval
    refine ⟨rfl, by rintro _ ⟨⟩, by rintro _ ⟨⟩, ?_,
      fun _ => ⟨host, digits, port, hhost, rfl, hauth, htext⟩⟩
    rintro _ ⟨rfl⟩
    exact ⟨host, some digits, hauth⟩
  · obtain ⟨htarget, hpath, hquery⟩ := splitQuery_eq_ok_iff.1 hsplit
    refine ⟨htarget.symm, ?_, hquery, by rintro _ ⟨⟩, fun hcon => ?_⟩
    · rintro _ ⟨rfl⟩
      exact hpath
    · rw [hother] at hcon
      cases hcon
  · obtain ⟨-, authority, path, query, rfl, hval, hafter, hpath, hquery⟩ :=
      parseAbsoluteUri_eq_ok habs
    refine ⟨?_, fun p hp => (hpath p hp).1, hquery, ?_, fun hcon => ?_⟩
    · rw [(splitOnce_eq_some_iff.1 hsplit).1, hafter]
      simp [Http1RequestTarget.text, ascii]
    · rintro _ ⟨rfl⟩
      exact validateHttp1Authority_eq_ok hval
    · rw [hother] at hcon
      cases hcon

theorem request_target_reassembled_absolute :
    http1RequestTarget (ascii "GET") (ascii "http://[::1]:8080/a%20b?q=1") =
        .ok (.absoluteUri (ascii "http://[::1]:8080/a%20b?q=1") (ascii "http")
          (some (ascii "[::1]:8080")) (some (ascii "/a%20b")) (some (ascii "q=1"))) ∧
      PathText (ascii "/a%20b") := by
  have h : http1RequestTarget (ascii "GET") (ascii "http://[::1]:8080/a%20b?q=1") =
      .ok (.absoluteUri (ascii "http://[::1]:8080/a%20b?q=1") (ascii "http")
        (some (ascii "[::1]:8080")) (some (ascii "/a%20b")) (some (ascii "q=1"))) := by
    decide +kernel
  exact ⟨h, (request_target_reassembled _ _ _ h).2.1 _ rfl⟩

end Fluxheim
