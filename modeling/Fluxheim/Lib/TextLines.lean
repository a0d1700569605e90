import Fluxheim.Lib.Ascii
import Fluxheim.Lib.Search

/-!
# Texts of lines

Lines that end in line feeds, bytes as hexadecimal digits, and readers that take a part off what is
left.  Numerals on lines and texts of known lengths are read back whatever follows them.
-/

namespace Ascii

open List

/-! ### Lines -/

variable (ls : List Bytes)

/-- Lines, each followed by a line feed. -/
def terminated : Bytes := (ls.map (· ++ [10])).flatten

@[simp] theorem terminated_nil : terminated [] = [] := rfl

@[simp] theorem terminated_cons (l : Bytes) (ls : List Bytes) :
    terminated (l :: ls) = l ++ 10 :: terminated ls := by
  simp [terminated]

theorem length_terminated : (terminated ls).length = (ls.map fun l => l.length + 1).sum := by
  induction ls with
  | nil => rfl
  | cons l ls ih =>
    simp only [terminated_cons, length_append, length_cons, ih, map_cons, sum_cons]
    omega

theorem length_le_terminated : ls.length ≤ (terminated ls).length := by
  induction ls with
  | nil => exact le_rfl
  | cons l ls ih =>
    rw [terminated_cons, length_append, length_cons, length_cons]
    omega

theorem mem_terminated {ls : List Bytes} {b : UInt8} (h : b ∈ terminated ls) :
    b = 10 ∨ ∃ l ∈ ls, b ∈ l := by
  simp only [terminated, mem_flatten, mem_map] at h
  obtain ⟨_, ⟨l, hl, rfl⟩, hb⟩ := h
  rcases mem_append.1 hb with hb | hb
  · exact .inr ⟨l, hl, hb⟩
  · exact .inl (mem_singleton.1 hb)

theorem terminated_eq_intercalate : terminated ls = [10].intercalate (ls ++ [[]]) := by
  induction ls with
  | nil => rfl
  | cons l ls ih =>
    have hne : ls ++ [[]] ≠ [] := by simp
    obtain ⟨m, ms, hm⟩ := exists_cons_of_ne_nil hne
    rw [terminated_cons, ih, cons_append, hm]
    simp

/-- A terminated line without its carriage return. -/
def stripCr (l : Bytes) : Bytes := if l.getLast? = some 13 then l.dropLast else l

variable (x : Bytes)

/-- The lines of a text: a line ends with a line feed or with both characters, and the last one
may end with the text. -/
def lines : List Bytes :=
  let pieces := x.splitOn 10
  pieces.dropLast.map stripCr ++ pieces.getLast?.toList.filter (· ≠ [])

theorem stripCr_of_not_mem {l : Bytes} (h : 13 ∉ l) : stripCr l = l := by
  refine if_neg fun hlast => h ?_
  exact mem_of_getLast? hlast

theorem splitOn_terminated {ls : List Bytes} (h : ∀ l ∈ ls, 10 ∉ l) :
    (terminated ls).splitOn 10 = ls ++ [[]] := by
  rw [terminated_eq_intercalate]
  refine splitOn_intercalate 10 (fun l hl => ?_) (by simp)
  rcases mem_append.1 hl with hl | hl
  · exact h l hl
  · rw [mem_singleton.1 hl]
    exact not_mem_nil

/-- Lines that hold no line end are read back. -/
theorem lines_terminated {ls : List Bytes} (h : ∀ l ∈ ls, 10 ∉ l ∧ 13 ∉ l) :
    lines (terminated ls) = ls := by
  rw [lines, splitOn_terminated fun l hl => (h l hl).1]
  simp only [dropLast_concat, getLast?_concat, Option.toList_some]
  rw [map_congr_left fun l hl => stripCr_of_not_mem (h l hl).2]
  simp

theorem isDigit_of_mem_decimal {n : ℕ} {b : UInt8} (h : b ∈ decimal n) : isDigit b = true :=
  all_eq_true.1 (decimal_all_isDigit n) b h

theorem not_mem_decimal {n : ℕ} {b : UInt8} (hb : isDigit b = false) : b ∉ decimal n := fun h => by
  rw [isDigit_of_mem_decimal h] at hb
  cases hb

theorem length_decimalLoop_le (fuel n k : ℕ) (acc : Bytes) (hk : 0 < k) (hn : n < 10 ^ k) :
    (decimalLoop fuel n acc).length ≤ acc.length + k := by
  induction fuel generalizing n k acc with
  | zero => exact Nat.le_add_right _ _
  | succ fuel ih =>
    unfold decimalLoop
    split_ifs with h
    · rw [length_cons]
      omega
    · obtain ⟨k, rfl⟩ : ∃ j, k = j + 1 := ⟨k - 1, by omega⟩
      have hk' : k ≠ 0 := by
        rintro rfl
        omega
      rw [pow_succ] at hn
      have := ih (n / 10) k (digit (n % 10) :: acc) (by omega)
        (Nat.div_lt_of_lt_mul (by rwa [mul_comm] at hn))
      rw [length_cons] at this
      omega

/-- A number below a power of ten has at most as many digits. -/
theorem length_decimal_le {n k : ℕ} (hk : 0 < k) (hn : n < 10 ^ k) : (decimal n).length ≤ k := by
  have := length_decimalLoop_le (n + 1) n k [] hk hn
  rwa [length_nil, zero_add] at this

theorem lt_of_isHexDigit {b : UInt8} :
    isHexDigit b = true → b < 0x80 ∧ b ≠ 9 ∧ b ≠ 10 ∧ b ≠ 13 := by
  revert b
  apply forall_byte
  decide +kernel

theorem isHexDigit_of_isDigit {b : UInt8} (h : isDigit b = true) : isHexDigit b = true := by
  rw [isHexDigit, h]
  rfl

/-- The lower-case digit of a number below sixteen. -/
def hexDigit (d : ℕ) : UInt8 := if d < 10 then UInt8.ofNat (48 + d) else UInt8.ofNat (87 + d)

/-- Two digits for each byte. -/
def hexEncode : Bytes :=
  x.flatMap fun b => [hexDigit (b.toNat / 16), hexDigit (b.toNat % 16)]

/-- The bytes of pairs of digits. -/
def hexDecode : Bytes → Option Bytes
  | [] => some []
  | h :: l :: x => do
      let high ← hexValue h
      let low ← hexValue l
      let rest ← hexDecode x
      some (UInt8.ofNat (high * 16 + low) :: rest)
  | [_] => none

theorem hexDigit_spec {d : ℕ} (hd : d < 16) :
    hexValue (hexDigit d) = some d ∧ isHexDigit (hexDigit d) = true := by
  revert d
  decide

theorem hexEncode_cons (b : UInt8) (x : Bytes) :
    hexEncode (b :: x) =
      hexDigit (b.toNat / 16) :: hexDigit (b.toNat % 16) :: hexEncode x := rfl

@[simp] theorem length_hexEncode : (hexEncode x).length = 2 * x.length := by
  induction x with
  | nil => rfl
  | cons b x ih =>
    rw [hexEncode_cons, length_cons, length_cons, length_cons]
    omega

theorem hexEncode_all_isHexDigit : (hexEncode x).all isHexDigit = true := by
  induction x with
  | nil => rfl
  | cons b x ih =>
    have hb := b.toNat_lt
    rw [hexEncode_cons, all_cons, all_cons, ih, (hexDigit_spec (by omega : b.toNat / 16 < 16)).2,
      (hexDigit_spec (by omega : b.toNat % 16 < 16)).2]
    rfl

/-- What is encoded is decoded. -/
@[simp] theorem hexDecode_hexEncode : hexDecode (hexEncode x) = some x := by
  induction x with
  | nil => rfl
  | cons b x ih =>
    have hb := b.toNat_lt
    have hbyte : UInt8.ofNat (b.toNat / 16 * 16 + b.toNat % 16) = b := by
      rw [Nat.div_add_mod', UInt8.ofNat_toNat]
    rw [hexEncode_cons, hexDecode, (hexDigit_spec (by omega : b.toNat / 16 < 16)).1,
      (hexDigit_spec (by omega : b.toNat % 16 < 16)).1, ih]
    simp only [Option.bind_eq_bind, Option.bind_some, hbyte]

/-- A text: bytes that are well-formed UTF-8. -/
abbrev Text := { x : Bytes // utf8Valid x = true }

/-- A part of a text and a text make a text; `need` continuation bytes are due before them. -/
theorem utf8From_append {x y : Bytes} {need : ℕ} {lo hi : UInt8}
    (hx : utf8From need lo hi x = true) (hy : utf8Valid y = true) :
    utf8From need lo hi (x ++ y) = true := by
  induction x generalizing need lo hi with
  | nil =>
    cases need with
    | zero =>
      cases y with
      | nil => rfl
      | cons b y => exact hy
    | succ need => cases hx
  | cons b x ih =>
    cases need with
    | zero =>
      rw [utf8From] at hx
      rw [cons_append, utf8From]
      split_ifs at hx ⊢ with hb
      · exact ih hx
      · cases hlead : utf8Lead b with
        | none =>
          rw [hlead] at hx
          cases hx
        | some lead =>
          rw [hlead] at hx
          exact ih hx
    | succ need =>
      rw [utf8From, Bool.and_eq_true] at hx
      rw [cons_append, utf8From, hx.1]
      exact ih hx.2

theorem utf8Valid_append {x y : Bytes} (hx : utf8Valid x = true) (hy : utf8Valid y = true) :
    utf8Valid (x ++ y) = true :=
  utf8From_append hx hy

/-- The first line of what is left, and what is left after it. -/
def takeLine : Option (Text × Bytes) :=
  match Search.splitOnce 10 x with
  | none => none
  | some (line, rest) => if h : utf8Valid line = true then some (⟨line, h⟩, rest) else none

/-- A line that is read as a value. -/
def takeField {α : Type} (parse : Bytes → Option α) (x : Bytes) : Option (α × Bytes) :=
  match takeLine x with
  | none => none
  | some (line, rest) => (parse line).map fun a => (a, rest)

/-- A number of lines that are read as values of one kind. -/
def takeFields {α : Type} (parse : Bytes → Option α) : ℕ → Bytes → Option (List α × Bytes)
  | 0, x => some ([], x)
  | n + 1, x => do
      let (a, x) ← takeField parse x
      let (as, x) ← takeFields parse n x
      some (a :: as, x)

/-- The next bytes, which must be a text. -/
def takeText (n : ℕ) (x : Bytes) : Option (Text × Bytes) :=
  if x.length < n then none
  else if h : utf8Valid (x.take n) = true then some (⟨x.take n, h⟩, x.drop n) else none

/-- Texts of the given lengths. -/
def takeTexts : List ℕ → Bytes → Option (List Text × Bytes)
  | [], x => some ([], x)
  | n :: lens, x => do
      let (t, x) ← takeText n x
      let (ts, x) ← takeTexts lens x
      some (t :: ts, x)

theorem takeLine_append {line : Bytes} (h : 10 ∉ line) (hutf8 : utf8Valid line = true)
    (rest : Bytes) : takeLine (line ++ 10 :: rest) = some (⟨line, hutf8⟩, rest) := by
  rw [takeLine, Search.splitOnce_eq_some_iff.2 ⟨rfl, h⟩]
  exact dif_pos hutf8

theorem utf8Valid_decimal (n : ℕ) : utf8Valid (decimal n) = true :=
  utf8Valid_of_ascii fun _ hb =>
    (lt_of_isHexDigit (isHexDigit_of_isDigit (isDigit_of_mem_decimal hb))).1

theorem takeField_append {α : Type} {parse : Bytes → Option α} {line : Bytes} (h : 10 ∉ line)
    (hutf8 : utf8Valid line = true) (rest : Bytes) :
    takeField parse (line ++ 10 :: rest) = (parse line).map fun a => (a, rest) := by
  rw [takeField, takeLine_append h hutf8]

/-- A numeral is read by any parser that reads numerals. -/
theorem takeField_decimal {α : Type} {parse : Bytes → Option α} {n : ℕ} {a : α}
    (h : parse (decimal n) = some a) (rest : Bytes) :
    takeField parse (decimal n ++ 10 :: rest) = some (a, rest) := by
  rw [takeField_append (not_mem_decimal (by decide)) (utf8Valid_decimal n), h]
  rfl

theorem takeFields_decimal {α β : Type} {parse : Bytes → Option α} {v : β → ℕ} {f : β → α}
    (l : List β) (h : ∀ b ∈ l, parse (decimal (v b)) = some (f b)) (rest : Bytes) :
    takeFields parse l.length (terminated (l.map fun b => decimal (v b)) ++ rest) =
      some (l.map f, rest) := by
  induction l with
  | nil => rfl
  | cons b l ih =>
    rw [forall_mem_cons] at h
    rw [map_cons, terminated_cons, append_assoc, cons_append, length_cons,
      takeFields, takeField_decimal h.1]
    simp only [Option.bind_eq_bind, Option.bind_some, ih h.2, map_cons]

theorem takeText_append (t : Text) (rest : Bytes) :
    takeText t.1.length (t.1 ++ rest) = some (t, rest) := by
  have htake : (t.1 ++ rest).take t.1.length = t.1 := take_left
  rw [takeText, if_neg (by simp), dif_pos (by rw [htake]; exact t.2)]
  simp only [htake, drop_left]

theorem takeTexts_flatten (ts : List Text) (rest : Bytes) :
    takeTexts (ts.map (·.1.length)) ((ts.map (·.1)).flatten ++ rest) = some (ts, rest) := by
  induction ts with
  | nil => rfl
  | cons t ts ih =>
    rw [map_cons, map_cons, flatten_cons, append_assoc, takeTexts, takeText_append]
    simp only [Option.bind_eq_bind, Option.bind_some, ih]

end Ascii
