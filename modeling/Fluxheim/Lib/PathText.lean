import Fluxheim.Lib.TextLines

/-!
# Texts of paths

A byte that is no hexadecimal digit separates what is decoded before it from what is decoded after
it, so a path is percent-decoded segment by segment.
-/

namespace Ascii

open List

/-- Control characters. -/
def isAsciiControl (b : UInt8) : Bool := b < 32 || b == 127

/-- Whether a well-formed text has a control character.  Those outside ASCII are `U+0080` to
`U+009F`: the byte `0xc2` and one from `0x80` to `0x9f`. -/
def hasControl : Bytes → Bool
  | [] => false
  | b :: x =>
    isAsciiControl b || (b == 0xc2 && x.head?.any fun c => 0x80 ≤ c && c ≤ 0x9f) || hasControl x

variable {a : UInt8} {segments : List Bytes} {x y : Bytes}

/-- No control character lies across an ASCII character. -/
theorem hasControl_append_cons (ha : a < 0x80) (x y : Bytes) :
    hasControl (x ++ a :: y) = (hasControl x || hasControl (a :: y)) := by
  induction x with
  | nil => rfl
  | cons b x ih =>
    have hhead : (b == 0xc2 && (x ++ a :: y).head?.any fun c => 0x80 ≤ c && c ≤ 0x9f) =
        (b == 0xc2 && x.head?.any fun c => 0x80 ≤ c && c ≤ 0x9f) := by
      cases x with
      | nil =>
        have hlow : ¬ (0x80 : UInt8) ≤ a := UInt8.not_le.2 ha
        simp [hlow]
      | cons c x => rfl
    rw [cons_append, hasControl, ih, hhead, ← Bool.or_assoc]
    rfl

theorem le_of_utf8Lead {b lo hi : UInt8} {n : ℕ} (h : utf8Lead b = some (n, lo, hi)) :
    0x80 ≤ lo := by
  unfold utf8Lead at h
  split_ifs at h <;> cases h <;> decide

/-- Both sides of an ASCII character of a text are texts. -/
theorem utf8From_of_append_cons (ha : a < 0x80) {need : ℕ}
    {lo hi : UInt8} (hlo : 0x80 ≤ lo) (h : utf8From need lo hi (x ++ a :: y) = true) :
    utf8From need lo hi x = true ∧ utf8Valid y = true := by
  induction x generalizing need lo hi with
  | nil =>
    cases need with
    | zero =>
      rw [nil_append, utf8From, if_pos ha] at h
      exact ⟨rfl, h⟩
    | succ need =>
      rw [nil_append, utf8From, Bool.and_eq_true, Bool.and_eq_true, decide_eq_true_eq] at h
      exact absurd (UInt8.lt_of_lt_of_le ha hlo) (UInt8.not_lt.2 h.1.1)
  | cons b x ih =>
    cases need with
    | zero =>
      rw [cons_append, utf8From] at h
      rw [utf8From]
      split_ifs at h ⊢ with hb
      · exact ih (by decide) h
      · cases hlead : utf8Lead b with
        | none =>
          rw [hlead] at h
          cases h
        | some lead =>
          rw [hlead] at h
          exact ih (le_of_utf8Lead hlead) h
    | succ need =>
      rw [cons_append, utf8From, Bool.and_eq_true] at h
      rw [utf8From, h.1]
      exact ih (by decide) h.2

theorem utf8Valid_of_append_cons (ha : a < 0x80)
    (h : utf8Valid (x ++ a :: y) = true) : utf8Valid x = true ∧ utf8Valid y = true :=
  utf8From_of_append_cons ha (by decide) h

/-! ### Percent-decoding -/

/-- A byte that is neither `%` nor a hexadecimal digit. -/
def Separates (a : UInt8) : Prop := a ≠ 37 ∧ hexValue a = none
  deriving Decidable

/-- What is decoded before a separating byte is independent of what stands after it. -/
theorem percentDecode_append_cons (ha : Separates a) (x y : Bytes) :
    percentDecode (x ++ a :: y) = percentDecode x ++ a :: percentDecode y := by
  fun_induction percentDecode x with
  | case1 => exact percentDecode_cons_of_ne ha.1 y
  | case2 h l x high low hl hh ih =>
    rw [cons_append, cons_append, cons_append, percentDecode, hl, hh]
    exact congrArg _ ih
  | case3 h l x hnone ih =>
    rw [cons_append, cons_append, cons_append, percentDecode]
    split
    · rename_i high low hl hh
      exact absurd hh (hnone high low hl)
    · exact congrArg _ ih
  | case4 b x hb ih =>
    rw [cons_append, cons_append, ← ih]
    by_cases hpercent : b = 37
    · -- one byte or none stands between the `%` and the separating byte
      subst hpercent
      obtain _ | ⟨c, _ | ⟨l, x⟩⟩ := x
      · cases y with
        | nil => rfl
        | cons c y =>
          rw [nil_append, percentDecode]
          simp [ha.2]
      · rw [cons_append, nil_append, percentDecode]
        simp [ha.2]
      · exact absurd rfl (hb c l x rfl)
    · rw [percentDecode_cons_of_ne hpercent]

/-- Percent-decoding that refuses a `%` without two hexadecimal digits. -/
def percentDecodeStrict : Bytes → Option Bytes
  | [] => some []
  | 37 :: h :: l :: x => do
      let high ← hexValue h
      let low ← hexValue l
      let rest ← percentDecodeStrict x
      some (UInt8.ofNat (high * 16 + low) :: rest)
  | b :: x => if b = 37 then none else (percentDecodeStrict x).map (b :: ·)

theorem percentDecodeStrict_cons_of_ne {b : UInt8} (hb : b ≠ 37) (x : Bytes) :
    percentDecodeStrict (b :: x) = (percentDecodeStrict x).map (b :: ·) := by
  rw [percentDecodeStrict.eq_3, if_neg hb]
  rintro h l y rfl
  exact absurd rfl hb

/-- A text without `%` is its own decoding. -/
theorem percentDecodeStrict_of_not_mem {x : Bytes} (h : 37 ∉ x) :
    percentDecodeStrict x = some x := by
  induction x with
  | nil => rfl
  | cons b x ih =>
    rw [mem_cons, not_or] at h
    rw [percentDecodeStrict_cons_of_ne (Ne.symm h.1), ih h.2]
    rfl

/-- What the strict decoding accepts is decoded as by the lenient one. -/
theorem percentDecode_of_strict (h : percentDecodeStrict x = some y) : percentDecode x = y := by
  fun_induction percentDecodeStrict x generalizing y with
  | case1 =>
    cases h
    rfl
  | case2 a b x ih =>
    simp only [Option.bind_eq_bind, Option.bind_eq_some_iff] at h
    obtain ⟨high, hhigh, low, hlow, rest, hrest, hy⟩ := h
    cases hy
    rw [percentDecode, hhigh, hlow]
    exact congrArg _ (ih hrest)
  | case3 x => cases h
  | case4 b x _ hb ih =>
    obtain ⟨rest, hrest, rfl⟩ := Option.map_eq_some_iff.1 h
    rw [percentDecode_cons_of_ne hb, ih hrest]

theorem percentDecodeStrict_append_cons (ha : Separates a) (x y : Bytes) :
    percentDecodeStrict (x ++ a :: y) =
      (percentDecodeStrict x).bind fun x => (percentDecodeStrict y).map (x ++ a :: ·) := by
  fun_induction percentDecodeStrict x with
  | case1 =>
    rw [nil_append, percentDecodeStrict_cons_of_ne ha.1]
    rfl
  | case2 h l x ih =>
    rw [cons_append, cons_append, cons_append, percentDecodeStrict, ih]
    cases hexValue h <;> cases hexValue l <;> cases percentDecodeStrict x <;>
      cases percentDecodeStrict y <;> rfl
  | case3 x hx =>
    match x, hx with
    | [], _ =>
      cases y with
      | nil => rfl
      | cons c y =>
        rw [cons_append, nil_append, percentDecodeStrict, ha.2]
        rfl
    | [c], _ =>
      rw [cons_append, cons_append, nil_append, percentDecodeStrict, ha.2]
      cases hexValue c <;> rfl
    | h :: l :: x, hx => exact absurd rfl (hx h l x rfl)
  | case4 b x _ hb ih =>
    rw [cons_append, percentDecodeStrict_cons_of_ne hb, ih]
    cases percentDecodeStrict x <;> cases percentDecodeStrict y <;> rfl

/-- The strict decoding, a number of times. -/
def percentDecodeTimes : ℕ → Bytes → Option Bytes
  | 0, x => some x
  | k + 1, x => (percentDecodeStrict x).bind (percentDecodeTimes k)

theorem percentDecodeTimes_of_not_mem {x : Bytes} (h : 37 ∉ x) (k : ℕ) :
    percentDecodeTimes k x = some x := by
  induction k with
  | zero => rfl
  | succ k ih => rw [percentDecodeTimes, percentDecodeStrict_of_not_mem h, Option.bind_some, ih]

theorem iterate_percentDecode_of_times {k : ℕ}
    (h : percentDecodeTimes k x = some y) : percentDecode^[k] x = y := by
  induction k generalizing x with
  | zero => exact Option.some.inj h
  | succ k ih =>
    obtain ⟨z, hz, hy⟩ := Option.bind_eq_some_iff.1 h
    rw [Function.iterate_succ_apply, percentDecode_of_strict hz, ih hy]

theorem intercalate_byte (a : UInt8) (s t : Bytes) (segments : List Bytes) :
    [a].intercalate (s :: t :: segments) = s ++ a :: [a].intercalate (t :: segments) := by
  rw [intercalate_cons_cons, append_assoc, singleton_append]

theorem percentDecode_intercalate (ha : Separates a) (segments : List Bytes) :
    percentDecode ([a].intercalate segments) = [a].intercalate (segments.map percentDecode) := by
  induction segments with
  | nil => rfl
  | cons s segments ih =>
    cases segments with
    | nil => simp
    | cons t segments =>
      rw [intercalate_byte, percentDecode_append_cons ha, ih]
      exact (intercalate_byte ..).symm

theorem iterate_percentDecode_intercalate (ha : Separates a) (k : ℕ) (segments : List Bytes) :
    percentDecode^[k] ([a].intercalate segments) =
      [a].intercalate (segments.map percentDecode^[k]) := by
  induction k generalizing segments with
  | zero => simp
  | succ k ih =>
    rw [Function.iterate_succ_apply, percentDecode_intercalate ha, ih, map_map]
    rfl

theorem percentDecodeStrict_intercalate (ha : Separates a)
    (h : ∀ s ∈ segments, percentDecodeStrict s = some (percentDecode s)) :
    percentDecodeStrict ([a].intercalate segments) =
      some ([a].intercalate (segments.map percentDecode)) := by
  induction segments with
  | nil => rfl
  | cons s segments ih =>
    rw [forall_mem_cons] at h
    cases segments with
    | nil => simpa using h.1
    | cons t segments =>
      rw [intercalate_byte, percentDecodeStrict_append_cons ha, h.1, ih h.2]
      exact congrArg some (intercalate_byte ..).symm

/-- There is a separator between any two segments that follow each other. -/
theorem count_intercalate (h : ∀ s ∈ segments, a ∉ s) :
    ([a].intercalate segments).count a = segments.length - 1 := by
  induction segments with
  | nil => rfl
  | cons s segments ih =>
    rw [forall_mem_cons] at h
    cases segments with
    | nil => simpa using count_eq_zero_of_not_mem h.1
    | cons t segments =>
      rw [intercalate_byte, count_append, count_cons_self, ih h.2, count_eq_zero_of_not_mem h.1]
      simp

/-- A path is a text if its segments are, and has a control character if one of them has. -/
theorem utf8Valid_intercalate (ha : a < 0x80) :
    utf8Valid ([a].intercalate segments) = true ↔ ∀ s ∈ segments, utf8Valid s = true := by
  induction segments with
  | nil => simp [utf8Valid, utf8From]
  | cons s segments ih =>
    cases segments with
    | nil => simp
    | cons t segments =>
      rw [intercalate_byte, forall_mem_cons, ← ih]
      refine ⟨utf8Valid_of_append_cons ha, fun h => utf8Valid_append h.1 ?_⟩
      rw [utf8Valid, utf8From, if_pos ha]
      exact h.2

theorem hasControl_intercalate (ha : a < 0x80) (hcontrol : isAsciiControl a = false)
    (segments : List Bytes) : hasControl ([a].intercalate segments) = segments.any hasControl := by
  induction segments with
  | nil => rfl
  | cons s segments ih =>
    cases segments with
    | nil => simp
    | cons t segments =>
      have hlead : (a == 0xc2) = false := by
        rw [beq_eq_false_iff_ne]
        rintro rfl
        exact absurd ha (by decide)
      rw [intercalate_byte, hasControl_append_cons ha, hasControl, hcontrol, hlead, ih]
      rfl

/-- Segments that can be decoded a number of times make a path that can. -/
theorem percentDecodeTimes_intercalate (ha : Separates a) {k : ℕ}
    (h : ∀ s ∈ segments, percentDecodeTimes k s = some (percentDecode^[k] s)) :
    percentDecodeTimes k ([a].intercalate segments) =
      some ([a].intercalate (segments.map percentDecode^[k])) := by
  induction k generalizing segments with
  | zero => simp [percentDecodeTimes]
  | succ k ih =>
    have hstrict : ∀ s ∈ segments, percentDecodeStrict s = some (percentDecode s) ∧
        percentDecodeTimes k (percentDecode s) = some (percentDecode^[k] (percentDecode s)) := by
      intro s hs
      obtain ⟨z, hz, hy⟩ := Option.bind_eq_some_iff.1 (h s hs)
      rw [percentDecode_of_strict hz]
      exact ⟨hz, hy.trans (by rw [Function.iterate_succ_apply, percentDecode_of_strict hz])⟩
    rw [percentDecodeTimes, percentDecodeStrict_intercalate ha fun s hs => (hstrict s hs).1,
      Option.bind_some, ih (forall_mem_map.2 fun s hs => (hstrict s hs).2), map_map]
    rfl

end Ascii
