import Mathlib.Data.List.DropRight
import Mathlib.Tactic

/-!
# Bytes and ASCII text

A byte string is a list of `UInt8`; a text literal is read as ASCII by `ascii`.  The character
classes are Boolean functions, so that a condition on bytes can be evaluated, and a fact about every
byte is checked on the 256 of them (`forall_byte`).
-/

namespace Ascii

open List

/-- A byte string. -/
abbrev Bytes := List UInt8

/-- The bytes of an ASCII text. -/
def ascii (s : String) : Bytes := s.toList.map (fun c => UInt8.ofNat c.toNat)

/-- A property of all bytes is a property of the numbers below 256. -/
theorem forall_byte {p : UInt8 → Prop} (h : ∀ n < 256, p (UInt8.ofNat n)) (b : UInt8) : p b := by
  have hb := h b.toNat b.toNat_lt
  rwa [UInt8.ofNat_toNat] at hb

variable (b : UInt8)

/-- The digits. -/
def isDigit : Bool := 48 ≤ b && b ≤ 57

/-- The small letters. -/
def isLower : Bool := 97 ≤ b && b ≤ 122

/-- The capital letters. -/
def isUpper : Bool := 65 ≤ b && b ≤ 90

/-- Letters and digits. -/
def isAlphanumeric : Bool := isDigit b || isLower b || isUpper b

/-- Hexadecimal digits. -/
def isHexDigit : Bool := isDigit b || 97 ≤ b && b ≤ 102 || 65 ≤ b && b ≤ 70

/-- ASCII white space: the characters `U+0009` to `U+000D` and the space. -/
def isSpace : Bool := 9 ≤ b && b ≤ 13 || b == 32

/-- The value of a hexadecimal digit. -/
def hexValue : Option ℕ :=
  if isDigit b then some (b.toNat - 48)
  else if 97 ≤ b && b ≤ 102 then some (b.toNat - 97 + 10)
  else if 65 ≤ b && b ≤ 70 then some (b.toNat - 65 + 10)
  else none

theorem hexValue_isSome : (hexValue b).isSome = isHexDigit b := by
  revert b; apply forall_byte; decide +kernel

/-- ASCII lower case. -/
def lower : UInt8 := if isUpper b then b + 32 else b

/-- Equality up to ASCII case. -/
def eqIgnoreCase (x y : Bytes) : Bool := x.map lower == y.map lower

theorem eqIgnoreCase_iff {x y : Bytes} : eqIgnoreCase x y = true ↔ x.map lower = y.map lower := by
  simp [eqIgnoreCase]

variable (x : Bytes)

@[simp] theorem eqIgnoreCase_refl : eqIgnoreCase x x = true := by
  simp [eqIgnoreCase]

theorem lower_lower : lower (lower b) = lower b := by
  revert b; apply forall_byte; decide +kernel

theorem map_lower_lower : (x.map lower).map lower = x.map lower := by
  simp [Function.comp_def, lower_lower]

/-! ### Trimming -/

/-- The text without its leading and trailing white space. -/
def trim : Bytes := (x.dropWhile isSpace).rdropWhile isSpace

theorem trim_sublist : (trim x).Sublist x :=
  (List.rdropWhile_prefix _ _).sublist.trans (dropWhile_sublist _)

theorem mem_of_mem_trim {x : Bytes} {b : UInt8} (h : b ∈ trim x) : b ∈ x :=
  (trim_sublist x).subset h

theorem length_trim_le : (trim x).length ≤ x.length := (trim_sublist x).length_le

/-- A text whose first and last characters are not white space is its own trimming. -/
theorem trim_eq_self_iff {x : Bytes} :
    trim x = x ↔ (∀ b, x.head? = some b → isSpace b = false) ∧
      ∀ b, x.getLast? = some b → isSpace b = false := by
  constructor
  · intro h
    have hdrop : x.dropWhile isSpace = x := by
      apply (dropWhile_suffix _).eq_of_length_le
      calc x.length = (trim x).length := by rw [h]
        _ ≤ _ := (List.rdropWhile_prefix _ _).length_le
    rw [trim, hdrop] at h
    refine ⟨fun b hb => ?_, fun b hb => ?_⟩
    · cases x with
      | nil => simp at hb
      | cons a l =>
        obtain rfl : a = b := by simpa using hb
        by_contra hs
        rw [dropWhile_cons_of_pos (by simpa using hs)] at hdrop
        have := congrArg length hdrop
        have := (dropWhile_suffix isSpace (l := l)).length_le
        simp at *; omega
    · have hne : x ≠ [] := by rintro rfl; simp at hb
      have := rdropWhile_eq_self_iff.1 h hne
      rw [getLast?_eq_some_getLast hne, Option.some.injEq] at hb
      rw [hb] at this
      simpa using this
  · rintro ⟨h1, h2⟩
    have hdrop : x.dropWhile isSpace = x := by
      cases x with
      | nil => rfl
      | cons a l => rw [dropWhile_cons_of_neg (by simp [h1 a rfl])]
    rw [trim, hdrop, rdropWhile_eq_self_iff]
    intro hne
    simp [h2 _ (getLast?_eq_some_getLast hne)]

/-- Trimming leaves a text without white space alone. -/
theorem trim_of_not_isSpace {x : Bytes} (h : ∀ b ∈ x, isSpace b = false) : trim x = x :=
  trim_eq_self_iff.2
    ⟨fun b hb => h b (mem_of_head? hb), fun b hb => h b (mem_of_getLast? hb)⟩

theorem trim_space_cons : trim (32 :: x) = trim x := by
  rfl

@[simp] theorem trim_trim : trim (trim x) = trim x := by
  rw [trim_eq_self_iff]
  refine ⟨fun b hb => ?_, fun b hb => ?_⟩
  · have hpre : trim x <+: x.dropWhile isSpace := List.rdropWhile_prefix _ _
    obtain ⟨t, ht⟩ := hpre
    cases htr : trim x with
    | nil => simp [htr] at hb
    | cons a l =>
      obtain rfl : a = b := by simpa [htr] using hb
      have hd : x.dropWhile isSpace = a :: (l ++ t) := by rw [← ht, htr]; rfl
      have := head?_dropWhile_not isSpace x
      rw [hd] at this
      simpa using this
  · have hne : trim x ≠ [] := by intro h; simp [h] at hb
    rw [getLast?_eq_some_getLast hne, Option.some.injEq] at hb
    have hlast : ¬ isSpace ((trim x).getLast hne) := rdropWhile_last_not isSpace _ hne
    rw [← hb]
    simpa using hlast

/-- The number written by a list of digits, most significant first. -/
def decimalValue : ℕ := x.foldl (fun n b => n * 10 + (b.toNat - 48)) 0

/-- The digit of a number below ten. -/
def digit (d : ℕ) : UInt8 := UInt8.ofNat (48 + d)

theorem digit_spec {d : ℕ} (hd : d < 10) : isDigit (digit d) = true ∧ (digit d).toNat - 48 = d := by
  revert d; decide

/-- The digits of `n` before the digits `acc`, at most `fuel` of them. -/
def decimalLoop : ℕ → ℕ → Bytes → Bytes
  | 0, _, acc => acc
  | fuel + 1, n, acc =>
    if n < 10 then digit n :: acc else decimalLoop fuel (n / 10) (digit (n % 10) :: acc)

/-- The decimal numeral of `n`. -/
def decimal (n : ℕ) : Bytes := decimalLoop (n + 1) n []

/-- The loop writes digits only, at least one of them, and their value is `n` followed by the
digits already written. -/
theorem decimalLoop_spec (fuel n : ℕ) (acc : Bytes) (hn : n < fuel)
    (hacc : acc.all isDigit = true) :
    (decimalLoop fuel n acc).all isDigit = true ∧ acc.length < (decimalLoop fuel n acc).length ∧
      decimalValue (decimalLoop fuel n acc) =
        acc.foldl (fun n b => n * 10 + (b.toNat - 48)) n := by
  induction fuel generalizing n acc with
  | zero => omega
  | succ fuel ih =>
    unfold decimalLoop
    split_ifs with h
    · obtain ⟨h1, h2⟩ := digit_spec h
      refine ⟨by rw [all_cons, h1, hacc]; rfl, by simp, ?_⟩
      simp [decimalValue, h2]
    · obtain ⟨h1, h2⟩ := digit_spec (Nat.mod_lt n (by omega : 0 < 10))
      obtain ⟨i1, i2, i3⟩ := ih (n / 10) (digit (n % 10) :: acc) (by omega)
        (by rw [all_cons, h1, hacc]; rfl)
      refine ⟨i1, lt_trans (by simp) i2, ?_⟩
      rw [i3, foldl_cons, h2, show n / 10 * 10 + n % 10 = n by omega]

theorem decimal_all_isDigit (n : ℕ) : (decimal n).all isDigit = true :=
  (decimalLoop_spec (n + 1) n [] (by omega) rfl).1

theorem decimal_ne_nil (n : ℕ) : decimal n ≠ [] := by
  have := (decimalLoop_spec (n + 1) n [] (by omega) rfl).2.1
  intro h
  simp [decimal] at h
  simp [h] at this

/-- Reading the numeral of `n` gives `n`. -/
@[simp] theorem decimalValue_decimal (n : ℕ) : decimalValue (decimal n) = n :=
  (decimalLoop_spec (n + 1) n [] (by omega) rfl).2.2

/-- The text with every `%` and two hexadecimal digits replaced by the byte that they name; any
other `%` stays.  It stands for the decoding of the crate `percent_encoding`. -/
def percentDecode : Bytes → Bytes
  | [] => []
  | 37 :: h :: l :: x =>
    match hexValue h, hexValue l with
    | some high, some low => UInt8.ofNat (high * 16 + low) :: percentDecode x
    | _, _ => 37 :: percentDecode (h :: l :: x)
  | b :: x => b :: percentDecode x

theorem percentDecode_cons_of_ne {b : UInt8} (hb : b ≠ 37) (x : Bytes) :
    percentDecode (b :: x) = b :: percentDecode x := by
  rw [percentDecode.eq_3]
  rintro h l y rfl
  exact absurd rfl hb

/-- A text without `%` is its own decoding. -/
theorem percentDecode_of_not_mem {x : Bytes} (h : 37 ∉ x) : percentDecode x = x := by
  induction x with
  | nil => rfl
  | cons b x ih =>
    rw [mem_cons, not_or] at h
    rw [percentDecode_cons_of_ne (Ne.symm h.1), ih h.2]

/-- What a lead byte announces: the number of continuation bytes, and the bounds of the first of
them.  The bounds exclude the overlong forms, the surrogates and everything above `U+10FFFF`. -/
def utf8Lead : Option (ℕ × UInt8 × UInt8) :=
  if 0xc2 ≤ b && b ≤ 0xdf then some (1, 0x80, 0xbf)
  else if b == 0xe0 then some (2, 0xa0, 0xbf)
  else if b == 0xed then some (2, 0x80, 0x9f)
  else if 0xe1 ≤ b && b ≤ 0xef then some (2, 0x80, 0xbf)
  else if b == 0xf0 then some (3, 0x90, 0xbf)
  else if 0xf1 ≤ b && b ≤ 0xf3 then some (3, 0x80, 0xbf)
  else if b == 0xf4 then some (3, 0x80, 0x8f)
  else none

/-- Well-formedness when `need` more continuation bytes are due, the next one in `[lo, hi]`. -/
def utf8From : ℕ → UInt8 → UInt8 → Bytes → Bool
  | 0, _, _, [] => true
  | _ + 1, _, _, [] => false
  | 0, _, _, b :: x =>
    if b < 0x80 then utf8From 0 0x80 0xbf x
    else match utf8Lead b with
      | some (n, lo, hi) => utf8From n lo hi x
      | none => false
  | n + 1, lo, hi, b :: x => lo ≤ b && b ≤ hi && utf8From n 0x80 0xbf x

/-- The well-formed byte sequences of UTF-8. -/
def utf8Valid : Bool := utf8From 0 0x80 0xbf x

/-- ASCII text is well-formed. -/
theorem utf8Valid_of_ascii {x : Bytes} (h : ∀ b ∈ x, b < 0x80) : utf8Valid x = true := by
  unfold utf8Valid
  induction x with
  | nil => rfl
  | cons a x ih =>
    rw [utf8From, if_pos (h a (by simp))]
    exact ih fun b hb => h b (by simp [hb])

end Ascii
