import Fluxheim.Lib.Ascii

/-!
# White space in texts

The white space of `str::trim` and `str::split_whitespace` is that of Unicode; a character outside
ASCII is several bytes, so texts are read by the encodings of the white-space characters.
-/

namespace Ascii

open List

/-- The encodings of the characters with the property `White_Space`. -/
def whiteSpace : List Bytes :=
  [[9], [10], [11], [12], [13], [32], [0xc2, 0x85], [0xc2, 0xa0], [0xe1, 0x9a, 0x80],
    [0xe2, 0x80, 0x80], [0xe2, 0x80, 0x81], [0xe2, 0x80, 0x82], [0xe2, 0x80, 0x83],
    [0xe2, 0x80, 0x84], [0xe2, 0x80, 0x85], [0xe2, 0x80, 0x86], [0xe2, 0x80, 0x87],
    [0xe2, 0x80, 0x88], [0xe2, 0x80, 0x89], [0xe2, 0x80, 0x8a], [0xe2, 0x80, 0xa8],
    [0xe2, 0x80, 0xa9], [0xe2, 0x80, 0xaf], [0xe2, 0x81, 0x9f], [0xe3, 0x80, 0x80]]

/-- The number of bytes of the one of `encodings` that a text begins with, if there is one. -/
def leadingLength (encodings : List Bytes) (x : Bytes) : ℕ :=
  ((encodings.find? fun encoding => encoding.isPrefixOf x).map List.length).getD 0

/-- A text without the `encodings` it begins with; `skip` more bytes belong to the last one. -/
def stripLeading (encodings : List Bytes) : ℕ → Bytes → Bytes
  | _, [] => []
  | skip + 1, _ :: x => stripLeading encodings skip x
  | 0, b :: x =>
    match leadingLength encodings (b :: x) with
    | 0 => b :: x
    | skip + 1 => stripLeading encodings skip x

/-- `str::trim`. -/
def trimText (x : Bytes) : Bytes :=
  (stripLeading (whiteSpace.map List.reverse) 0 (stripLeading whiteSpace 0 x).reverse).reverse

/-- The words of a text, the first of which has begun with `word`, in reverse. -/
def splitWhitespaceLoop : ℕ → Bytes → Bytes → List Bytes
  | _, word, [] => if word = [] then [] else [word.reverse]
  | skip + 1, word, _ :: x => splitWhitespaceLoop skip word x
  | 0, word, b :: x =>
    match leadingLength whiteSpace (b :: x) with
    | 0 => splitWhitespaceLoop 0 (b :: word) x
    | skip + 1 => (if word = [] then [] else [word.reverse]) ++ splitWhitespaceLoop skip [] x

/-- The words of a text. -/
def splitWhitespace (x : Bytes) : List Bytes := splitWhitespaceLoop 0 [] x

/-- A visible ASCII character. -/
def isVisible (b : UInt8) : Bool := 33 ≤ b && b < 0x80

/-- A word of visible ASCII characters. -/
def IsWord (x : Bytes) : Prop := x ≠ [] ∧ ∀ b ∈ x, isVisible b = true

theorem leadingLength_of_isVisible {encodings : List Bytes}
    (h : ∀ enc ∈ encodings, enc.head?.any (fun c => !isVisible c) = true) {b : UInt8}
    (hb : isVisible b = true) (x : Bytes) : leadingLength encodings (b :: x) = 0 := by
  have hnone : encodings.find? (fun enc => enc.isPrefixOf (b :: x)) = none := by
    rw [find?_eq_none]
    intro enc henc
    have hc := h enc henc
    cases enc with
    | nil => simp at hc
    | cons c rest =>
      have hne : c ≠ b := by
        rintro rfl
        simp [hb] at hc
      simp [List.isPrefixOf, hne]
  rw [leadingLength, hnone]
  rfl

theorem whiteSpace_head : ∀ enc ∈ whiteSpace, enc.head?.any (fun c => !isVisible c) = true := by
  decide

theorem leadingLength_space (x : Bytes) : leadingLength whiteSpace (32 :: x) = 1 := by
  simp [leadingLength, whiteSpace, List.isPrefixOf]

theorem splitWhitespaceLoop_append {w : Bytes} (hw : ∀ b ∈ w, isVisible b = true)
    (word rest : Bytes) :
    splitWhitespaceLoop 0 word (w ++ rest) = splitWhitespaceLoop 0 (w.reverse ++ word) rest := by
  induction w generalizing word with
  | nil => rfl
  | cons b w ih =>
    rw [forall_mem_cons] at hw
    rw [cons_append, splitWhitespaceLoop, leadingLength_of_isVisible whiteSpace_head hw.1]
    rw [ih hw.2, reverse_cons, append_assoc]
    rfl

/-- Words with spaces between them are read back. -/
theorem splitWhitespace_intercalate {words : List Bytes} (h : ∀ w ∈ words, IsWord w) :
    splitWhitespace ([32].intercalate words) = words := by
  rw [splitWhitespace]
  induction words with
  | nil => rfl
  | cons w words ih =>
    rw [forall_mem_cons] at h
    have hrev : w.reverse ≠ [] := by simpa using h.1.1
    cases words with
    | nil =>
      have happ := splitWhitespaceLoop_append h.1.2 [] []
      rw [append_nil, append_nil] at happ
      rw [intercalate_singleton, happ, splitWhitespaceLoop, if_neg hrev, reverse_reverse]
    | cons w' words =>
      rw [intercalate_cons_cons, append_assoc, singleton_append,
        splitWhitespaceLoop_append h.1.2, append_nil, splitWhitespaceLoop, leadingLength_space]
      dsimp only
      rw [if_neg hrev, reverse_reverse, ih h.2]
      rfl

end Ascii
