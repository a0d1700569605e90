import Fluxheim.Http1.ChunkedStream

/-!
# The grammar of chunked bodies

What the decoder accepts, as a grammar.  A `ChunkedBody` is a list of chunks and a last size line;
its structure carries what makes it well formed, and `encode` writes it out.  A quoted string of the
decoder consists of printable ASCII characters.  Horizontal tabs and bytes from 0x80 on, which RFC
9110 allows in a quoted string, are refused.
-/

namespace Fluxheim

open Ascii Fallible Search Incremental List

/-! ### Chunk extensions -/

/-- The printable ASCII characters, the space included. -/
def printable (b : UInt8) : Prop := 0x20 ≤ b ∧ b ≤ 0x7e

/-- The characters of a quoted string in RFC 9110: the printable ones, the tab, and those that are
not ASCII. -/
def rfcText (b : UInt8) : Prop := b = 9 ∨ 0x20 ≤ b ∧ b ≠ 0x7f

/-- The text between the quotes, over some characters: a quote or a backslash has to be escaped,
and anything may be. -/
inductive QuotedText (text : UInt8 → Prop) : Bytes → Prop
  | nil : QuotedText text []
  | plain {b : UInt8} {t : Bytes} (hb : text b) (hquote : b ≠ 34) (hslash : b ≠ 92)
      (ht : QuotedText text t) : QuotedText text (b :: t)
  | escape {b : UInt8} {t : Bytes} (hb : text b) (ht : QuotedText text t) :
      QuotedText text (92 :: b :: t)

/-- A value of an extension: a token or a quoted string. -/
inductive ExtensionValue (text : UInt8 → Prop) : Bytes → Prop
  | token {v : Bytes} (hv : httpTokenValid v = true) : ExtensionValue text v
  | quoted {t : Bytes} (ht : QuotedText text t) : ExtensionValue text (34 :: (t ++ [34]))

/-- One extension: a semicolon, a token, and possibly `=` and a value. -/
inductive Extension (text : UInt8 → Prop) : Bytes → Prop
  | name {n : Bytes} (hn : httpTokenValid n = true) : Extension text (59 :: n)
  | value {n v : Bytes} (hn : httpTokenValid n = true) (hv : ExtensionValue text v) :
      Extension text (59 :: (n ++ 61 :: v))

/-- A sequence of extensions. -/
def ExtensionList (text : UInt8 → Prop) (x : Bytes) : Prop :=
  ∃ es : List Bytes, (∀ e ∈ es, Extension text e) ∧ es.flatten = x

theorem quotedForbidden_eq_false_iff (b : UInt8) : quotedForbidden b = false ↔ printable b := by
  unfold quotedForbidden printable
  revert b; apply forall_byte; decide +kernel

variable {t v b x rest e s : Bytes}

theorem findQuoteClose_complete (ht : QuotedText printable t) (rest : Bytes) :
    findQuoteClose false (t ++ 34 :: rest) = .ok (some t.length) := by
  induction ht with
  | nil => rfl
  | @plain b t hb hquo hslash ht ih =>
    rw [cons_append, findQuoteClose, if_neg hslash, if_neg hquo,
      (quotedForbidden_eq_false_iff b).2 hb, ih]
    rfl
  | @escape b t hb ht ih =>
    rw [cons_append, cons_append, findQuoteClose, findQuoteClose,
      (quotedForbidden_eq_false_iff b).2 hb, ih]
    rfl

variable {p : ChunkPosition}

/-- The automaton stops at a quote that ends the text.  An escaped start is one after a
backslash. -/
theorem findQuoteClose_sound {escaped : Bool} {i : ℕ}
    (h : findQuoteClose escaped x = .ok (some i)) :
    ∃ t rest, x = t ++ 34 :: rest ∧ i = t.length ∧
      QuotedText printable (if escaped then 92 :: t else t) := by
  have hstep : ∀ {r : Except Http1ParseError (Option ℕ)} {i : ℕ},
      r.map (Option.map (· + 1)) = .ok (some i) → ∃ j, r = .ok (some j) ∧ i = j + 1 := by
    intro r i hr
    obtain ⟨o, rfl, ho⟩ := map_eq_ok.1 hr
    obtain ⟨j, rfl, rfl⟩ := Option.map_eq_some_iff.1 ho
    exact ⟨j, rfl, rfl⟩
  fun_induction findQuoteClose escaped x generalizing i with
  | case1 => cases h
  | case2 => cases h
  | case3 b x hb ih =>
    obtain ⟨j, hj, rfl⟩ := hstep h
    obtain ⟨t, rest, rfl, rfl, ht⟩ := ih hj
    have hb' := (quotedForbidden_eq_false_iff b).1 (by simpa using hb)
    exact ⟨b :: t, rest, rfl, rfl, .escape hb' (by simpa using ht)⟩
  | case4 x ih =>
    obtain ⟨j, hj, rfl⟩ := hstep h
    obtain ⟨t, rest, rfl, rfl, ht⟩ := ih hj
    exact ⟨92 :: t, rest, rfl, rfl, by simpa using ht⟩
  | case5 x =>
    cases h
    exact ⟨[], x, rfl, rfl, .nil⟩
  | case6 => cases h
  | case7 b x hslash hquo hb ih =>
    obtain ⟨j, hj, rfl⟩ := hstep h
    obtain ⟨t, rest, rfl, rfl, ht⟩ := ih hj
    have hb' := (quotedForbidden_eq_false_iff b).1 (by simpa using hb)
    exact ⟨b :: t, rest, rfl, rfl, .plain hb' hquo hslash (by simpa using ht)⟩

/-- What may follow an extension: another one, or nothing. -/
def AtExtensionEnd (rest : Bytes) : Prop := ∀ b ∈ rest.head?, b = 59

theorem token_ne (hv : httpTokenValid v = true) {b c : UInt8} (hc : tokenByte c = false)
    (hb : b ∈ v) : b ≠ c := by
  rintro rfl
  rw [(httpTokenValid_iff.1 hv).2 b hb] at hc
  cases hc

theorem utf8Valid_token (hv : httpTokenValid v = true) : utf8Valid v = true :=
  utf8Valid_of_ascii fun b hb => by
    have := (tokenByte_spec b ((httpTokenValid_iff.1 hv).2 b hb)).2.1
    exact UInt8.lt_of_le_of_lt this (by decide)

theorem validateChunkExtensionValue_quoted (t rest : Bytes) (ht : QuotedText printable t)
    (hrest : AtExtensionEnd rest) :
    validateChunkExtensionValue (34 :: (t ++ 34 :: rest)) = .ok rest := by
  have hdrop : (t ++ 34 :: rest).drop (t.length + 1) = rest := by
    rw [← drop_drop, drop_left]
    rfl
  unfold validateChunkExtensionValue
  simp only [findQuoteClose_complete ht, hdrop]
  rw [if_neg]
  rintro ⟨hne, hhead⟩
  cases rest with
  | nil => exact hne rfl
  | cons b rest => exact hhead (congrArg some (hrest b rfl))

theorem validateChunkExtensionValue_token (v rest : Bytes) (hv : httpTokenValid v = true)
    (hrest : AtExtensionEnd rest) : validateChunkExtensionValue (v ++ rest) = .ok rest := by
  have htake : (v ++ rest).takeWhile (· ≠ 59) = v :=
    takeWhile_append_of_stop (fun b hb => by simpa using token_ne hv (by decide) hb)
      (fun b hb => by simpa using hrest b hb)
  unfold validateChunkExtensionValue
  split
  · rename_i quoted hx
    obtain ⟨b, v, rfl⟩ := exists_cons_of_ne_nil (httpTokenValid_iff.1 hv).1
    rw [cons_append, cons.injEq] at hx
    exact absurd hx.1 (token_ne hv (by decide) (by simp))
  · simp only [htake, utf8Valid_token hv, hv, drop_left]
    rfl

/-- The value of an extension, with what follows it. -/
theorem validateChunkExtensionValue_iff :
    validateChunkExtensionValue x = .ok rest ↔
      ∃ v, ExtensionValue printable v ∧ x = v ++ rest ∧ AtExtensionEnd rest := by
  constructor
  · intro h
    unfold validateChunkExtensionValue at h
    split at h
    · rename_i quoted
      split at h
      · cases h
      · cases h
      · rename_i i hi
        obtain ⟨t, rest', rfl, rfl, ht⟩ := findQuoteClose_sound hi
        have hdrop : (t ++ 34 :: rest').drop (t.length + 1) = rest' := by
          rw [← drop_drop, drop_left]
          rfl
        simp only [hdrop] at h
        split_ifs at h with hend
        cases h
        refine ⟨_, .quoted ht, by simp, fun b hb => ?_⟩
        by_contra hne
        refine hend ⟨?_, ?_⟩
        · rintro rfl
          cases hb
        · rw [Option.mem_def.1 hb]
          simpa using hne
    · simp only at h
      split_ifs at h with h1 h2
      cases h
      refine ⟨x.takeWhile (· ≠ 59), .token (by simpa using h2), ?_, fun b hb => ?_⟩
      · rw [drop_length_takeWhile, takeWhile_append_dropWhile]
      · rw [drop_length_takeWhile] at hb
        simpa using head?_dropWhile_eq_false hb
  · rintro ⟨v, hv, rfl, hrest⟩
    cases hv with
    | token hv => exact validateChunkExtensionValue_token v rest hv hrest
    | @quoted t ht =>
      have := validateChunkExtensionValue_quoted t rest ht hrest
      simpa using this

/-- A byte tested as a text of its own. -/
theorem httpTokenValid_byte (b : UInt8) :
    httpTokenValid (if utf8Valid [b] then [b] else []) = tokenByte b := by
  revert b; apply forall_byte; decide +kernel

/-- One turn of the loop, by the name and what follows it. -/
theorem validateChunkExtension_cons (x : Bytes) :
    validateChunkExtension (59 :: x) =
      if httpTokenValid (x.takeWhile extensionNameByte) then
        validateChunkExtensionTail (x.dropWhile extensionNameByte)
      else .error .invalidChunk := by
  have hbyte : (fun b => httpTokenValid (if utf8Valid [b] then [b] else [])) = tokenByte :=
    funext httpTokenValid_byte
  unfold validateChunkExtension
  simp only [hbyte, drop_length_takeWhile]
  by_cases hn : httpTokenValid (x.takeWhile extensionNameByte) = true
  · rw [if_pos hn, if_neg]
    rw [httpTokenValid_iff] at hn
    rw [not_or, not_not, all_eq_true]
    exact hn
  · rw [if_neg hn, if_pos]
    rw [httpTokenValid_iff] at hn
    rw [all_eq_true]
    exact or_iff_not_imp_left.2 fun hne hall => hn ⟨hne, hall⟩

theorem validateChunkExtensionTail_iff (hx : ∀ b ∈ x.head?, b = 59 ∨ b = 61) :
    validateChunkExtensionTail x = .ok rest ↔
      (x = rest ∧ AtExtensionEnd rest) ∨
        ∃ v, ExtensionValue printable v ∧ x = 61 :: (v ++ rest) ∧ AtExtensionEnd rest := by
  unfold validateChunkExtensionTail
  split
  · rename_i y
    rw [validateChunkExtensionValue_iff]
    constructor
    · rintro ⟨v, hv, rfl, hrest⟩
      exact Or.inr ⟨v, hv, rfl, hrest⟩
    · rintro (⟨rfl, hrest⟩ | ⟨v, hv, hy, hrest⟩)
      · exact absurd (hrest 61 rfl) (by decide)
      · exact ⟨v, hv, tail_eq_of_cons_eq hy, hrest⟩
  · rename_i hne
    rw [Except.ok.injEq]
    constructor
    · rintro rfl
      refine Or.inl ⟨rfl, fun b hb => (hx b hb).resolve_right ?_⟩
      rintro rfl
      cases x with
      | nil => cases hb
      | cons c x => exact hne x (by rw [Option.mem_def.1 hb |> Option.some.inj])
    · rintro (⟨rfl, -⟩ | ⟨v, -, hx, -⟩)
      · rfl
      · exact absurd hx (hne _)

/-- One turn of the loop reads one extension. -/
theorem validateChunkExtension_iff :
    validateChunkExtension x = .ok rest ↔
      ∃ e, Extension printable e ∧ x = e ++ rest ∧ AtExtensionEnd rest := by
  have hname : ∀ {n y : Bytes}, httpTokenValid n = true → (∀ b ∈ y.head?, b = 59 ∨ b = 61) →
      (n ++ y).takeWhile extensionNameByte = n := by
    intro n y hn hy
    refine takeWhile_append_of_stop (fun b hb => ?_) (fun b hb => ?_)
    · simp [extensionNameByte, token_ne hn (c := 59) (by decide) hb,
        token_ne hn (c := 61) (by decide) hb]
    · rcases hy b hb with rfl | rfl <;> decide
  constructor
  · intro h
    unfold validateChunkExtension at h
    split at h
    · rename_i x
      have hturn := validateChunkExtension_cons x
      have hsplit := takeWhile_append_dropWhile (p := extensionNameByte) (l := x)
      have hstop : ∀ b ∈ (x.dropWhile extensionNameByte).head?, b = 59 ∨ b = 61 := by
        intro b hb
        have := head?_dropWhile_eq_false hb
        simpa [extensionNameByte, or_iff_not_imp_left] using this
      rw [show validateChunkExtension (59 :: x) = .ok rest from h] at hturn
      split_ifs at hturn with hn
      rcases (validateChunkExtensionTail_iff hstop).1 hturn.symm with
        ⟨hx, hrest⟩ | ⟨v, hv, hx, hrest⟩
      · refine ⟨_, .name hn, ?_, hrest⟩
        rw [cons_append, ← hx, hsplit]
      · refine ⟨_, .value hn hv, ?_, hrest⟩
        rw [cons_append, append_assoc, cons_append, ← hx, hsplit]
    · cases h
  · rintro ⟨e, he, rfl, hrest⟩
    cases he with
    | @name n hn =>
      have hy : ∀ b ∈ rest.head?, b = 59 ∨ b = 61 := fun b hb => Or.inl (hrest b hb)
      have htake := hname hn hy
      rw [cons_append, validateChunkExtension_cons, htake, if_pos hn,
        ← drop_length_takeWhile, htake, drop_left]
      exact (validateChunkExtensionTail_iff hy).2 (Or.inl ⟨rfl, hrest⟩)
    | @value n v hn hv =>
      have hy : ∀ b ∈ (61 :: (v ++ rest)).head?, b = 59 ∨ b = 61 := by simp
      have htake := hname hn hy
      rw [cons_append, append_assoc, cons_append, validateChunkExtension_cons, htake,
        if_pos hn, ← drop_length_takeWhile, htake, drop_left]
      exact (validateChunkExtensionTail_iff hy).2 (Or.inr ⟨v, hv, rfl, hrest⟩)

theorem Extension.head? {text : UInt8 → Prop} (he : Extension text e) : ∃ t, e = 59 :: t := by
  cases he with
  | name => exact ⟨_, rfl⟩
  | value => exact ⟨_, rfl⟩

theorem atExtensionEnd_flatten {text : UInt8 → Prop} {es : List Bytes}
    (hes : ∀ e ∈ es, Extension text e) : AtExtensionEnd es.flatten := by
  intro b hb
  cases es with
  | nil => cases hb
  | cons e es =>
    obtain ⟨t, rfl⟩ := (hes e (by simp)).head?
    exact (Option.some.inj hb).symm

theorem validateChunkExtensionsLoop_iff {fuel : ℕ} (hfuel : x.length ≤ fuel) :
    validateChunkExtensionsLoop fuel x = .ok () ↔ ExtensionList printable x := by
  induction fuel generalizing x with
  | zero =>
    have hx : x = [] := length_eq_zero_iff.1 (by omega)
    subst hx
    exact ⟨fun _ => ⟨[], by simp, rfl⟩, fun _ => rfl⟩
  | succ fuel ih =>
    cases x with
    | nil => exact ⟨fun _ => ⟨[], by simp, rfl⟩, fun _ => rfl⟩
    | cons b x =>
      rw [validateChunkExtensionsLoop, bind_eq_ok]
      constructor
      · rintro ⟨rest, hturn, hloop⟩
        obtain ⟨e, he, hx, -⟩ := validateChunkExtension_iff.1 hturn
        obtain ⟨t, rfl⟩ := he.head?
        have hlen := congrArg length hx
        simp only [length_cons, length_append] at hlen hfuel
        obtain ⟨es, hes, rfl⟩ := (ih (by omega)).1 hloop
        exact ⟨(59 :: t) :: es, by simpa using ⟨he, hes⟩, hx.symm⟩
      · rintro ⟨es, hes, hx⟩
        cases es with
        | nil => cases hx
        | cons e es =>
          have he := hes e (by simp)
          have hes' : ∀ e ∈ es, Extension printable e := fun e' h => hes e' (by simp [h])
          obtain ⟨t, rfl⟩ := he.head?
          have hlen := congrArg length hx
          simp only [flatten_cons, length_cons, length_append] at hlen hfuel
          refine ⟨es.flatten, validateChunkExtension_iff.2
            ⟨59 :: t, he, hx.symm, atExtensionEnd_flatten hes'⟩, (ih (by omega)).2 ⟨es, hes', rfl⟩⟩

/-- **An extension list is accepted exactly if it is one.** -/
theorem validateChunkExtensions_iff (x : Bytes) :
    validateChunkExtensions x = .ok () ↔ ExtensionList printable x :=
  validateChunkExtensionsLoop_iff le_rfl

/-! ### Size lines -/

/-- The number that hexadecimal digits stand for, after a number already read. -/
def hexFrom (v : ℕ) (digits : Bytes) : ℕ :=
  digits.foldl (fun v b => v * 16 + (hexValue b).getD 0) v

theorem le_hexFrom (v : ℕ) (digits : Bytes) : v ≤ hexFrom v digits := by
  induction digits generalizing v with
  | nil => exact le_rfl
  | cons b digits ih => exact (by omega : v ≤ v * 16 + (hexValue b).getD 0).trans (ih _)

theorem parseChunkSizeDigits_iff {limit v size : ℕ} {digits : Bytes} (hlimit : limit ≤ usizeMax)
    (hv : v ≤ limit) :
    parseChunkSizeDigits limit v digits = .ok size ↔
      (∀ b ∈ digits, isHexDigit b = true) ∧ size = hexFrom v digits ∧ size ≤ limit := by
  induction digits generalizing v with
  | nil =>
    simp only [parseChunkSizeDigits, hexFrom, foldl_nil, Except.ok.injEq]
    constructor
    · rintro rfl
      exact ⟨by simp, rfl, hv⟩
    · rintro ⟨-, rfl, -⟩
      rfl
  | cons b digits ih =>
    rw [parseChunkSizeDigits]
    cases hb : hexValue b with
    | none =>
      simp only [reduceCtorEq, false_iff, mem_cons, forall_eq_or_imp, not_and]
      rintro ⟨hhex, -⟩
      rw [← hexValue_isSome, hb] at hhex
      cases hhex
    | some d =>
      have hhex : isHexDigit b = true := by rw [← hexValue_isSome, hb]; rfl
      have hfrom : hexFrom v (b :: digits) = hexFrom (v * 16 + d) digits := by
        simp [hexFrom, hb]
      have hle := le_hexFrom (v * 16 + d) digits
      by_cases hfit : v * 16 + d ≤ limit
      · have hmul : checkedMul v 16 = some (v * 16) := if_pos (by omega)
        simp only [hmul, Option.bind_some, checkedAdd_of_le (hfit.trans hlimit)]
        rw [if_neg (by omega), ih hfit, hfrom]
        simp [hhex]
      · -- both the overflow and the limit refuse the size
        refine iff_of_false ?_ ?_
        · dsimp only
          cases hn : (checkedMul v 16).bind (checkedAdd · d) with
          | none => simp
          | some n =>
            obtain ⟨m, hm, hmn⟩ := Option.bind_eq_some_iff.1 hn
            simp only [checkedMul, checkedAdd, Option.ite_none_right_eq_some, Option.some.injEq]
              at hm hmn
            dsimp only
            rw [if_pos (by omega)]
            simp
        · rintro ⟨-, rfl, hsize⟩
          omega

/-- A well-formed size line. -/
structure SizeLine where
  digits : Bytes
  ext : Bytes
  digits_ne : digits ≠ []
  digits_hex : ∀ b ∈ digits, isHexDigit b = true
  ext_list : ExtensionList printable ext

variable (l : SizeLine)

/-- The size that the line declares. -/
def SizeLine.size : ℕ := hexFrom 0 l.digits

/-- The line without its end. -/
def SizeLine.line : Bytes := l.digits ++ l.ext

theorem hexDigit_ne (b : UInt8) : isHexDigit b = true → b ≠ 13 ∧ b ≠ 59 := by
  revert b; apply forall_byte; decide +kernel

theorem QuotedText.ne_cr (ht : QuotedText printable t) : 13 ∉ t := by
  have hb : ∀ {b : UInt8}, printable b → 13 ≠ b := by
    rintro b hb rfl
    exact absurd hb.1 (by decide)
  induction ht with
  | nil => simp
  | plain h _ _ _ ih => simpa using ⟨hb h, ih⟩
  | escape h _ ih => simpa using ⟨hb h, ih⟩

theorem Extension.ne_cr (he : Extension printable e) : 13 ∉ e := by
  have htok : ∀ {v : Bytes}, httpTokenValid v = true → 13 ∉ v := fun hv h =>
    token_ne hv (by decide) h rfl
  cases he with
  | name hn => simpa using htok hn
  | value hn hv =>
    cases hv with
    | token hv => simpa using ⟨htok hn, htok hv⟩
    | quoted ht => simpa using ⟨htok hn, ht.ne_cr⟩

/-- The end of a size line is the first line end. -/
theorem SizeLine.ne_cr : 13 ∉ l.line := by
  rw [line, mem_append, not_or]
  refine ⟨fun h => (hexDigit_ne 13 (l.digits_hex 13 h)).1 rfl, ?_⟩
  obtain ⟨es, hes, hext⟩ := l.ext_list
  rw [← hext, mem_flatten]
  rintro ⟨e, he, h⟩
  exact (hes e he).ne_cr h

theorem SizeLine.findSub_line (x : Bytes) :
    findSub crlf (l.line ++ (crlf ++ x)) = some l.line.length := by
  rw [crlf, findSub_append_left l.ne_cr, findSub_self_append]
  simp

variable {n k m : ℕ}

/-- **A size line is accepted exactly if it is one, within the chunk limit.** -/
theorem parseChunkSizeLine_iff {line : Bytes} {limit size : ℕ} (hlimit : limit ≤ usizeMax) :
    parseChunkSizeLine line limit = .ok (size, n) ↔
      ∃ l : SizeLine, l.line = line ∧ l.size = size ∧ size ≤ limit ∧ l.ext.length = n := by
  have hsplit := takeWhile_append_dropWhile (p := fun b : UInt8 => decide (b ≠ 59)) (l := line)
  unfold parseChunkSizeLine
  simp only [drop_length_takeWhile, length_eq_zero_iff]
  have htake : line.take (line.takeWhile fun b => decide (b ≠ 59)).length
      = line.takeWhile fun b => decide (b ≠ 59) := by
    nth_rewrite 2 [← hsplit]
    exact take_left
  rw [htake]
  constructor
  · intro h
    split_ifs at h with hne
    obtain ⟨size', hdigits, h⟩ := bind_eq_ok.1 h
    obtain ⟨⟨⟩, hext, h⟩ := bind_eq_ok.1 h
    cases h
    obtain ⟨hhex, hsize, hle⟩ := (parseChunkSizeDigits_iff hlimit (Nat.zero_le _)).1 hdigits
    refine ⟨⟨_, _, hne, hhex, (validateChunkExtensions_iff _).1 hext⟩, hsplit, hsize.symm, hle, ?_⟩
    have := congrArg length hsplit
    rw [length_append] at this
    simp only
    omega
  · rintro ⟨l, rfl, rfl, hle, rfl⟩
    have hdigits : l.line.takeWhile (fun b => decide (b ≠ 59)) = l.digits := by
      refine takeWhile_append_of_stop (fun b hb => ?_) (fun b hb => ?_)
      · simpa using (hexDigit_ne b (l.digits_hex b hb)).2
      · obtain ⟨es, hes, hext⟩ := l.ext_list
        rw [← hext] at hb
        simpa using atExtensionEnd_flatten hes b hb
    have hext : l.line.dropWhile (fun b => decide (b ≠ 59)) = l.ext := by
      rw [← drop_length_takeWhile, hdigits, SizeLine.line, drop_left]
    rw [hdigits, hext, if_neg l.digits_ne,
      (parseChunkSizeDigits_iff hlimit (Nat.zero_le _)).2 ⟨l.digits_hex, rfl, hle⟩]
    simp only [ok_bind, (validateChunkExtensions_iff _).2 l.ext_list]
    rw [SizeLine.line, length_append, Nat.add_sub_cancel_left, SizeLine.size]

/-- A chunk: a size line and that many bytes of data, at least one. -/
structure Chunk extends SizeLine where
  data : Bytes
  data_ne : data ≠ []
  data_length : data.length = toSizeLine.size

variable (c : Chunk)

/-- A chunk as it is sent. -/
def Chunk.encode : Bytes := c.line ++ crlf ++ c.data ++ crlf

/-- A chunked body without trailer fields: chunks, a last line of size zero, and an empty line. -/
structure ChunkedBody where
  chunks : List Chunk
  last : SizeLine
  last_size : last.size = 0

namespace ChunkedBody

/-- A body as it is sent. -/
def encode (b : ChunkedBody) : Bytes :=
  (b.chunks.map Chunk.encode).flatten ++ b.last.line ++ crlf ++ crlf

/-- The data of a body. -/
def data (b : ChunkedBody) : Bytes := (b.chunks.map Chunk.data).flatten

/-- The size lines of a body. -/
def lines (b : ChunkedBody) : List SizeLine := b.chunks.map Chunk.toSizeLine ++ [b.last]

/-- The body with another chunk before it. -/
def cons (b : ChunkedBody) : ChunkedBody := { b with chunks := c :: b.chunks }

theorem encode_cons (b : ChunkedBody) :
    (b.cons c).encode = c.line ++ (crlf ++ (c.data ++ (crlf ++ b.encode))) := by
  simp [encode, cons, Chunk.encode]

theorem data_cons (b : ChunkedBody) : (b.cons c).data = c.data ++ b.data := by
  simp [data, cons]

theorem lines_cons (b : ChunkedBody) : (b.cons c).lines = c.toSizeLine :: b.lines :=
  rfl

/-- The limits on a body that follows `count` size lines with `ext` bytes of extensions and
`decoded` bytes of data.  The encoded limit is apart. -/
structure Within (limits : Http1ChunkLimits) (count ext decoded : ℕ) (b : ChunkedBody) : Prop where
  line_le : ∀ l ∈ b.lines, l.line.length ≤ limits.maxChunkLineBytes
  size_le : ∀ l ∈ b.lines, l.size ≤ limits.maxChunkSize
  count_le : count + b.lines.length ≤ limits.maxChunkCount
  ext_le : ext + (b.lines.map fun l => l.ext.length).sum ≤ limits.maxChunkExtensionBytes
  data_le : decoded + b.data.length ≤ limits.maxBodyBytes

theorem within_cons {limits : Http1ChunkLimits} {count ext decoded : ℕ} {c : Chunk}
    {b : ChunkedBody} : (b.cons c).Within limits count ext decoded ↔
      (c.line.length ≤ limits.maxChunkLineBytes ∧ c.size ≤ limits.maxChunkSize) ∧
        b.Within limits (count + 1) (ext + c.ext.length) (decoded + c.data.length) := by
  constructor
  · rintro ⟨h1, h2, h3, h4, h5⟩
    rw [lines_cons] at h1 h2 h3 h4
    rw [data_cons, length_append] at h5
    rw [forall_mem_cons] at h1 h2
    rw [length_cons] at h3
    rw [map_cons, sum_cons] at h4
    exact ⟨⟨h1.1, h2.1⟩, h1.2, h2.2, by omega, by omega, by omega⟩
  · rintro ⟨⟨h1, h2⟩, h3, h4, h5, h6, h7⟩
    constructor
    · rw [lines_cons, forall_mem_cons]
      exact ⟨h1, h3⟩
    · rw [lines_cons, forall_mem_cons]
      exact ⟨h2, h4⟩
    · rw [lines_cons, length_cons]
      omega
    · rw [lines_cons, map_cons, sum_cons]
      omega
    · rw [data_cons, length_append]
      omega

theorem within_last {limits : Http1ChunkLimits} {count ext decoded : ℕ} {l : SizeLine}
    {h : l.size = 0} : (⟨[], l, h⟩ : ChunkedBody).Within limits count ext decoded ↔
      l.line.length ≤ limits.maxChunkLineBytes ∧ count + 1 ≤ limits.maxChunkCount ∧
        ext + l.ext.length ≤ limits.maxChunkExtensionBytes ∧ decoded ≤ limits.maxBodyBytes := by
  constructor
  · rintro ⟨h1, -, h3, h4, h5⟩
    exact ⟨h1 l (by simp [lines]), h3, by simpa [lines] using h4, by simpa [data] using h5⟩
  · rintro ⟨h1, h2, h3, h4⟩
    exact ⟨by simpa [lines] using h1, by simp [lines, h], h2, by simpa [lines] using h3,
      by simpa [data] using h4⟩

end ChunkedBody

/-! ### The machine accepts the bodies within the limits -/

variable (limits : Http1ChunkLimits)

/-- The position after a size line. -/
def ChunkPosition.afterLine (p : ChunkPosition) (l : SizeLine) : ChunkPosition :=
  { p with
    chunkCount := p.chunkCount + 1
    extensionBytes := p.extensionBytes + l.ext.length
    state := if l.size = 0 then .finish else .data l.size }

/-- A size line within the limits, at a position. -/
structure SizeLine.Fits (p : ChunkPosition) (l : SizeLine) : Prop where
  line_le : l.line.length ≤ limits.maxChunkLineBytes
  count_le : p.chunkCount + 1 ≤ limits.maxChunkCount
  size_le : l.size ≤ limits.maxChunkSize
  ext_le : p.extensionBytes + l.ext.length ≤ limits.maxChunkExtensionBytes

theorem chunkStep_line_iff {p p' : ChunkPosition} (hs : p.state = .size) :
    chunkStep limits p x = .next p' k ↔
      ∃ l : SizeLine, l.Fits limits p ∧ l.line ++ crlf <+: x ∧ p' = p.afterLine l ∧
        k = l.line.length + 2 := by
  rw [chunkStep_eq_next]
  simp only [hs, true_and, reduceCtorEq, false_and, exists_false, or_false, readSizeLine_eq_ok,
    parseChunkSizeLine_iff limits.maxChunkSize.le_usizeMax]
  constructor
  · rintro ⟨n, hn, ⟨hline, hcount, size, ext, ⟨l, hl, rfl, hsize, rfl⟩, hext, rfl⟩, rfl⟩
    have hlen : (x.take n).length = n := by
      have := findSub_add_length_le hn
      rw [length_take]
      omega
    refine ⟨l, ⟨by rwa [hl], hcount, hsize, hext⟩, ?_, rfl, by rw [hl, hlen]⟩
    rw [hl]
    exact ⟨x.drop (n + 2), take_append_drop_of_findSub hn⟩
  · rintro ⟨l, hl, ⟨y, rfl⟩, rfl, rfl⟩
    refine ⟨l.line.length, by rw [append_assoc, l.findSub_line], ?_, rfl⟩
    rw [append_assoc, take_left]
    exact ⟨hl.line_le, hl.count_le, l.size, l.ext.length, ⟨l, rfl, rfl, hl.size_le, rfl⟩,
      hl.ext_le, rfl⟩

theorem chunkStep_data_iff {p p' : ChunkPosition} {size : ℕ} (hs : p.state = .data size) :
    chunkStep limits p x = .next p' k ↔
      ∃ data : Bytes, data.length = size ∧ p.decoded.length + size ≤ limits.maxBodyBytes ∧
        data ++ crlf <+: x ∧ p' = { p with state := .size, decoded := p.decoded ++ data } ∧
        k = size + 2 := by
  rw [chunkStep_eq_next]
  simp only [hs, reduceCtorEq, false_and, false_or, Http1ChunkedDecodeState.data.injEq]
  constructor
  · rintro ⟨_, rfl, rfl, hlen, hcrlf, hbody, rfl⟩
    refine ⟨x.take size, by rw [length_take]; omega, hbody, ⟨x.drop (size + 2), ?_⟩, rfl, rfl⟩
    have hslice : (x.take (size + 2)).take size = x.take size := by
      rw [take_take]
      congr 1
      omega
    rw [← hcrlf, slice, ← hslice, take_append_drop, take_append_drop]
  · rintro ⟨data, rfl, hbody, ⟨y, rfl⟩, rfl, rfl⟩
    refine ⟨data.length, rfl, rfl, by simp [crlf], ?_, hbody, by simp⟩
    simp [slice, crlf, take_append]

/-- What a run that finishes has read, by the state it began in. -/
def Completes (p : ChunkPosition) (x b : Bytes) (n : ℕ) : Prop :=
  match p.state with
  | .size => ∃ body : ChunkedBody,
      body.Within limits p.chunkCount p.extensionBytes p.decoded.length ∧ body.encode <+: x ∧
        b = p.decoded ++ body.data ∧ n = body.encode.length
  | .data size => ∃ (data : Bytes) (body : ChunkedBody), data.length = size ∧
      body.Within limits p.chunkCount p.extensionBytes (p.decoded.length + size) ∧
        data ++ (crlf ++ body.encode) <+: x ∧ b = p.decoded ++ (data ++ body.data) ∧
        n = size + 2 + body.encode.length
  | .finish => crlf <+: x ∧ b = p.decoded ∧ n = 2

/-- A run that finishes has read a body within the limits. -/
theorem run_sound (hp : p.Valid limits m)
    (h : (chunkMachine limits).run p x = .done b n) : Completes limits p x b n := by
  induction p, x using (chunkMachine limits).run_induction generalizing n m with
  | wait p x hs => rw [(chunkMachine limits).run_of_wait hs] at h; cases h
  | fail p x e hs => rw [(chunkMachine limits).run_of_fail hs] at h; cases h
  | done p x r k hs =>
    rw [(chunkMachine limits).run_of_done hs] at h
    cases h
    obtain ⟨hstate, -, hcrlf, rfl, rfl⟩ := (chunkStep_eq_done limits).1 hs
    simp only [Completes, hstate]
    exact ⟨hcrlf ▸ List.take_prefix 2 x, trivial, trivial⟩
  | next p x p' k hs ih =>
    have hp' := hp.next limits hs
    rw [(chunkMachine limits).run_of_next hs] at h
    obtain ⟨j, hrun, rfl⟩ := Outcome.shift_eq_done.1 h
    have hrest := ih hp' hrun
    cases hstate : p.state with
    | size =>
      obtain ⟨l, hl, ⟨y, rfl⟩, rfl, rfl⟩ := (chunkStep_line_iff limits hstate).1 hs
      have hdrop : (l.line ++ crlf ++ y).drop (l.line.length + 2) = y :=
        drop_left' (by rw [length_append, crlf_length])
      rw [hdrop] at hrest
      simp only [Completes, hstate]
      by_cases hzero : l.size = 0
      · -- the last line: only the empty line is left
        simp only [Completes, ChunkPosition.afterLine, if_pos hzero] at hrest
        obtain ⟨⟨z, rfl⟩, rfl, rfl⟩ := hrest
        refine ⟨⟨[], l, hzero⟩, ChunkedBody.within_last.2 ⟨hl.line_le, hl.count_le, hl.ext_le,
          hp.decoded_le_body⟩, ⟨z, ?_⟩, ?_, ?_⟩
        · simp [ChunkedBody.encode]
        · simp [ChunkedBody.data]
        · simp [ChunkedBody.encode, crlf_length]
      · simp only [Completes, ChunkPosition.afterLine, if_neg hzero] at hrest
        obtain ⟨data, body, hlen, hin, ⟨z, rfl⟩, rfl, rfl⟩ := hrest
        have hne : data ≠ [] := by
          rintro rfl
          exact hzero hlen.symm
        refine ⟨body.cons ⟨l, data, hne, hlen⟩, ChunkedBody.within_cons.2
          ⟨⟨hl.line_le, hl.size_le⟩, by rwa [hlen]⟩, ⟨z, ?_⟩, ?_, ?_⟩
        · simp [ChunkedBody.encode_cons]
        · simp [ChunkedBody.data_cons]
        · simp only [ChunkedBody.encode_cons, length_append, crlf_length, hlen]
          omega
    | data size =>
      obtain ⟨data, hlen, hbody, ⟨y, rfl⟩, rfl, rfl⟩ := (chunkStep_data_iff limits hstate).1 hs
      have hdrop : (data ++ crlf ++ y).drop (size + 2) = y :=
        drop_left' (by rw [length_append, crlf_length, hlen])
      rw [hdrop] at hrest
      simp only [Completes, length_append, hlen] at hrest
      obtain ⟨body, hin, ⟨z, rfl⟩, rfl, rfl⟩ := hrest
      simp only [Completes, hstate]
      exact ⟨data, body, hlen, hin, ⟨z, by simp⟩, by simp, rfl⟩
    | finish =>
      rcases (chunkStep_eq_next limits).1 hs with ⟨hsize, -⟩ | ⟨size, hsize, -⟩
      · rw [hstate] at hsize; cases hsize
      · rw [hstate] at hsize; cases hsize

theorem run_line {l : SizeLine} (hs : p.state = .size) (hl : l.Fits limits p)
    (x : Bytes) : (chunkMachine limits).run p (l.line ++ (crlf ++ x)) =
      ((chunkMachine limits).run (p.afterLine l) x).shift (l.line.length + 2) := by
  have hstep : chunkStep limits p (l.line ++ (crlf ++ x)) = .next (p.afterLine l) _ :=
    (chunkStep_line_iff limits hs).2 ⟨l, hl, ⟨x, by simp⟩, rfl, rfl⟩
  rw [(chunkMachine limits).run_of_next hstep, ← append_assoc,
    drop_left' (by rw [length_append, crlf_length])]

theorem run_data {data : Bytes} (hs : p.state = .data data.length)
    (hbody : p.decoded.length + data.length ≤ limits.maxBodyBytes) (x : Bytes) :
    (chunkMachine limits).run p (data ++ (crlf ++ x)) =
      ((chunkMachine limits).run { p with state := .size, decoded := p.decoded ++ data } x).shift
        (data.length + 2) := by
  have hstep : chunkStep limits p (data ++ (crlf ++ x)) =
      .next { p with state := .size, decoded := p.decoded ++ data } _ :=
    (chunkStep_data_iff limits hs).2 ⟨data, rfl, hbody, ⟨x, by simp⟩, rfl, rfl⟩
  rw [(chunkMachine limits).run_of_next hstep, ← append_assoc,
    drop_left' (by rw [length_append, crlf_length])]

theorem run_finish (hs : p.state = .finish) (x : Bytes) :
    (chunkMachine limits).run p (crlf ++ x) = .done p.decoded 2 := by
  have hstep : chunkStep limits p (crlf ++ x) = .done p.decoded 2 :=
    (chunkStep_eq_done limits).2 ⟨hs, by simp [crlf], rfl, rfl, rfl⟩
  exact (chunkMachine limits).run_of_done hstep

/-- The machine reads a body within the limits. -/
theorem run_complete (hs : p.state = .size) (body : ChunkedBody)
    (hbody : body.Within limits p.chunkCount p.extensionBytes p.decoded.length) (x : Bytes) :
    (chunkMachine limits).run p (body.encode ++ x) =
      .done (p.decoded ++ body.data) body.encode.length := by
  obtain ⟨chunks, last, hlast⟩ := body
  induction chunks generalizing p with
  | nil =>
    obtain ⟨hline, hcount, hext, -⟩ := ChunkedBody.within_last.1 hbody
    have hfits : last.Fits limits p := ⟨hline, hcount, by omega, hext⟩
    have henc : (⟨[], last, hlast⟩ : ChunkedBody).encode ++ x
        = last.line ++ (crlf ++ (crlf ++ x)) := by
      simp [ChunkedBody.encode]
    have hstate : (p.afterLine last).state = .finish := if_pos hlast
    rw [henc, run_line limits hs hfits, run_finish limits hstate]
    simp [Outcome.shift, ChunkPosition.afterLine, ChunkedBody.data, ChunkedBody.encode, crlf_length]
  | cons c chunks ih =>
    obtain ⟨⟨hline, hsize⟩, hrest⟩ := ChunkedBody.within_cons (b := ⟨chunks, last, hlast⟩).1 hbody
    have hcount := hrest.count_le
    have hext := hrest.ext_le
    have hdata := hrest.data_le
    have hpos : c.size ≠ 0 := by
      rw [← c.data_length]
      exact mt length_eq_zero_iff.1 c.data_ne
    have hfits : c.toSizeLine.Fits limits p := ⟨hline, by omega, hsize, by omega⟩
    have hstate : (p.afterLine c.toSizeLine).state = .data c.data.length := by
      rw [c.data_length]
      exact if_neg hpos
    have hrun := ih (p := { p.afterLine c.toSizeLine with
      state := .size
      decoded := p.decoded ++ c.data }) rfl (by rw [length_append]; exact hrest)
    rw [show (⟨c :: chunks, last, hlast⟩ : ChunkedBody) = ChunkedBody.cons c ⟨chunks, last, hlast⟩
      from rfl, ChunkedBody.encode_cons, ChunkedBody.data_cons]
    simp only [append_assoc]
    rw [run_line limits hs hfits, run_data limits hstate
      (by simp only [ChunkPosition.afterLine]; omega)]
    simp only [ChunkPosition.afterLine] at hrun ⊢
    rw [hrun]
    simp only [Outcome.shift, append_assoc, length_append, crlf_length, Outcome.done.injEq,
      true_and]
    omega

/-- A body within all limits, at the beginning of a stream. -/
structure ChunkedBody.Accepted (s : Bytes) (body : ChunkedBody) : Prop where
  within : body.Within limits 0 0 0
  encoded_le : body.encode.length ≤ limits.maxEncodedBytes
  begins : body.encode <+: s

theorem decodeSpec_eq_done_iff :
    decodeSpec limits s = .done b n ↔
      (chunkMachine limits).run .start (s.take limits.maxEncodedBytes) = .done b n := by
  unfold decodeSpec
  cases (chunkMachine limits).run .start (s.take limits.maxEncodedBytes) with
  | pending p m =>
    split_ifs <;> simp
  | fail e => rfl
  | done b' m => rfl

theorem decodeSpec_eq_done_iff_body :
    decodeSpec limits s = .done b n ↔
      ∃ body : ChunkedBody, body.Accepted limits s ∧ b = body.data ∧ n = body.encode.length := by
  rw [decodeSpec_eq_done_iff]
  constructor
  · intro h
    obtain ⟨body, hin, hpre, rfl, rfl⟩ := run_sound limits (ChunkPosition.start_valid limits) h
    refine ⟨body, ⟨hin, ?_, hpre.trans (List.take_prefix _ _)⟩, rfl, rfl⟩
    exact hpre.length_le.trans (length_take_le _ _)
  · rintro ⟨body, ⟨hin, hle, hpre⟩, rfl, rfl⟩
    obtain ⟨y, hy⟩ : body.encode <+: s.take limits.maxEncodedBytes :=
      prefix_take_iff.2 ⟨hpre, hle⟩
    rw [← hy]
    exact run_complete limits rfl body hin y

/-- Where the decoder overflows, what it waits for does not fit the encoded limit. -/
theorem not_done_of_overflow {u : Bytes} (hu : u <+: s) (hle : u.length ≤ limits.maxEncodedBytes)
    (hrun : (chunkMachine limits).run .start u = .pending p n)
    (hover : Http1ChunkedDecoder.Overflow limits p (0 + n)) : decodeSpec limits s ≠ .done b m := by
  rw [Ne, decodeSpec_eq_done_iff]
  intro hdone
  have hm := (chunkMachine limits).run_done_le hdone
  rw [length_take] at hm
  have hmax := limits.maxEncodedBytes.le_usizeMax
  obtain ⟨t, ht⟩ : u <+: s.take limits.maxEncodedBytes := prefix_take_iff.2 ⟨hu, hle⟩
  rw [← ht, (chunkMachine limits).run_append_pending hrun] at hdone
  obtain ⟨j, hrest, rfl⟩ := Outcome.shift_eq_done.1 hdone
  obtain ⟨size, hstate, hover⟩ := hover
  have hcom := run_sound limits (chunkMachine_run_valid limits hrun) hrest
  rcases hstate with hstate | ⟨hstate, rfl⟩
  · simp only [Completes, hstate] at hcom
    obtain ⟨data, body, -, -, -, -, rfl⟩ := hcom
    omega
  · simp only [Completes, hstate] at hcom
    omega

open Http1ChunkedDecoder

/-- The decoder completes exactly where the specification does. -/
theorem feed_eq_some_iff {fragments : List Bytes} {complete : Http1ChunkedDecode} {out : Bytes} :
    (∃ d, (new limits).feed fragments ([] : Bytes) = .ok (some complete, d, out)) ↔
      ∃ n, decodeSpec limits fragments.flatten = .done out n ∧ complete = ⟨out.length, n⟩ := by
  have hstart : Reached limits (vecSink fragments.flatten.length) (new limits) ([] : Bytes) []
      .start 0 := Reached.start ⟨trivial, rfl⟩
  have hfeed := hstart.feed_spec fragments (min_le_right _ _)
  rw [nil_append] at hfeed
  constructor
  · rintro ⟨d, hd⟩
    rw [hd] at hfeed
    rcases hfeed with hfeed | ⟨u, -, -, p, m, -, -, e, he⟩
    · cases hspec : decodeSpec limits fragments.flatten with
      | pending p m =>
        rw [hspec] at hfeed
        obtain ⟨d', output, hr, -⟩ := hfeed
        cases hr
      | fail e =>
        rw [hspec] at hfeed
        cases hfeed
      | done b m =>
        rw [hspec] at hfeed
        obtain ⟨d', output, hr, -, hout⟩ := hfeed
        cases hr
        subst hout
        exact ⟨m, rfl, by rw [zero_add]; rfl⟩
    · cases he
  · rintro ⟨n, hspec, rfl⟩
    rcases hfeed with hfeed | ⟨u, hu, hle, p, m, hrun, hover, -⟩
    · rw [hspec] at hfeed
      obtain ⟨d', output, hr, -, hout⟩ := hfeed
      subst hout
      exact ⟨d', by rw [hr, zero_add]; rfl⟩
    · exact absurd hspec (not_done_of_overflow limits hu hle hrun hover)

/-- **What the decoder accepts.**  Fed in any fragments, it completes exactly if the stream begins
with a chunked body within the limits, having read that body and written its data; the body is
determined; and the accepted extension lists are those of the grammar. -/
theorem feed_complete_iff_chunkedBody (limits : Http1ChunkLimits) (fragments : List Bytes) :
    (∀ complete out,
      (∃ d, (new limits).feed fragments ([] : Bytes) = .ok (some complete, d, out)) ↔
        ∃ body : ChunkedBody, body.Accepted limits fragments.flatten ∧
          complete = ⟨body.data.length, body.encode.length⟩ ∧ out = body.data) ∧
    (∀ body body' : ChunkedBody, body.Accepted limits fragments.flatten →
      body'.Accepted limits fragments.flatten → body.encode = body'.encode) ∧
    (∀ extensions, validateChunkExtensions extensions = .ok () ↔
      ExtensionList printable extensions) := by
  refine ⟨fun complete out => ?_, fun body body' h h' => ?_, validateChunkExtensions_iff⟩
  · rw [feed_eq_some_iff]
    constructor
    · rintro ⟨n, hspec, rfl⟩
      obtain ⟨body, hbody, rfl, rfl⟩ := (decodeSpec_eq_done_iff_body limits).1 hspec
      exact ⟨body, hbody, rfl, rfl⟩
    · rintro ⟨body, hbody, rfl, rfl⟩
      exact ⟨_, (decodeSpec_eq_done_iff_body limits).2 ⟨body, hbody, rfl, rfl⟩, rfl⟩
  · -- both are the prefix that is read
    have hspec := (decodeSpec_eq_done_iff_body limits).2 ⟨body, h, rfl, rfl⟩
    have hspec' := (decodeSpec_eq_done_iff_body limits).2 ⟨body', h', rfl, rfl⟩
    rw [hspec] at hspec'
    injection hspec' with _ hlen
    exact (prefix_of_prefix_length_le h.begins h'.begins hlen.le).eq_of_length hlen

/-- A tab in a quoted string is one of RFC 9110, and is refused. -/
theorem validateChunkExtensions_tab :
    ExtensionList rfcText (ascii ";a=\"\t\"") ∧
      validateChunkExtensions (ascii ";a=\"\t\"") = .error .invalidChunk := by
  refine ⟨⟨[ascii ";a=\"\t\""], ?_, rfl⟩, rfl⟩
  rw [forall_mem_singleton]
  exact .value (n := [97]) (v := 34 :: ([9] ++ [34])) rfl
    (.quoted (.plain (Or.inl rfl) (by decide) (by decide) .nil))

end Fluxheim
