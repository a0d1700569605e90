import Fluxheim.Lib.PathText

/-!
# Paths that are forwarded

`safe_forward_path` refuses a path that is, or becomes by percent-decoding, something other than its
segments: each segment is decoded until no `%` is left in it, three times at most, and what is
decoded is checked every time.
-/

namespace Fluxheim

open Ascii List

variable (segment : Bytes)

/-- A segment that must not be forwarded. -/
def unsafeDecodedForwardPathSegment : Bool :=
  segment == ascii "." || segment == ascii ".." ||
    segment.any fun byte => isAsciiControl byte || byte == 47 || byte == 92

/-- One decoding. -/
def percentDecodePathSegment : Option Bytes := percentDecodeStrict segment

/-- The loop of `safe_forward_path_segment`, and what follows it. -/
def safeForwardPathRounds : ℕ → Bytes → Bool
  | 0, current => !current.contains 37
  | rounds + 1, current =>
    match percentDecodePathSegment current with
    | none => false
    | some decoded =>
      if unsafeDecodedForwardPathSegment decoded then false
      else if utf8Valid decoded = false then false
      else if hasControl decoded then false
      else if 37 ∉ decoded then true
      else safeForwardPathRounds rounds decoded

/-- The number of times a segment is decoded. -/
def FORWARD_PATH_ROUNDS : ℕ := 3

/-- A segment, and what it is decoded to. -/
def safeForwardPathSegment : Bool :=
  if segment = ascii "." ∨ segment = ascii ".." then false
  else safeForwardPathRounds FORWARD_PATH_ROUNDS segment

/-- A path that may be forwarded. -/
def safeForwardPath (path : Text) : Bool :=
  if path.1.head? ≠ some 47 ∨ hasControl path.1 = true ∨ 92 ∈ path.1 then false
  else if 1 < path.1.length ∧ [47, 47] <:+: path.1 then false
  else (path.1.splitOn 47).all safeForwardPathSegment

/-- A segment that a path may have. -/
structure SafeSegment (segment : Bytes) : Prop where
  ne_dot : segment ≠ ascii "."
  ne_dots : segment ≠ ascii ".."
  slash : 47 ∉ segment
  backslash : 92 ∉ segment
  control : hasControl segment = false
  utf8 : utf8Valid segment = true

theorem safeSegment_of_checked {segment : Bytes}
    (hdec : ¬ unsafeDecodedForwardPathSegment segment = true)
    (hutf8 : ¬ utf8Valid segment = false) (hcontrol : ¬ hasControl segment = true) :
    SafeSegment segment := by
  rw [unsafeDecodedForwardPathSegment, Bool.or_eq_true, Bool.or_eq_true, not_or, not_or, beq_iff_eq,
    beq_iff_eq, any_eq_true, not_exists] at hdec
  obtain ⟨⟨hdot, hdots⟩, hby⟩ := hdec
  exact ⟨hdot, hdots, fun h => hby 47 ⟨h, rfl⟩, fun h => hby 92 ⟨h, rfl⟩,
    Bool.eq_false_iff.2 hcontrol, Bool.eq_true_of_not_eq_false hutf8⟩

/-- A safe segment that the loop accepts stays safe however often it is decoded, and nothing is left
to decode after the rounds of the loop. -/
theorem SafeSegment.decoded {segment : Bytes} {rounds : ℕ} (hsafe : SafeSegment segment)
    (h : safeForwardPathRounds rounds segment = true) (k : ℕ) :
    ∃ decoded, percentDecodeTimes k segment = some decoded ∧ SafeSegment decoded ∧
      (rounds ≤ k → 37 ∉ decoded) := by
  induction rounds generalizing segment k with
  | zero =>
    have hpercent : 37 ∉ segment := by simpa [safeForwardPathRounds] using h
    exact ⟨segment, percentDecodeTimes_of_not_mem hpercent k, hsafe, fun _ => hpercent⟩
  | succ rounds ih =>
    cases k with
    | zero => exact ⟨segment, rfl, hsafe, fun h => absurd h (by omega)⟩
    | succ k =>
      rw [safeForwardPathRounds] at h
      cases hdec : percentDecodePathSegment segment with
      | none =>
        rw [hdec] at h
        cases h
      | some once =>
        rw [hdec] at h
        dsimp only at h
        rw [percentDecodeTimes, show percentDecodeStrict segment = some once from hdec]
        split_ifs at h with hunsafe hutf8 hcontrol hpercent
        · have honce := safeSegment_of_checked hunsafe hutf8 hcontrol
          obtain ⟨decoded, htime, hdecoded, hround⟩ := ih honce h k
          exact ⟨decoded, htime, hdecoded, fun hk => hround (by omega)⟩
        · have honce := safeSegment_of_checked hunsafe hutf8 hcontrol
          exact ⟨once, percentDecodeTimes_of_not_mem hpercent k, honce, fun _ => hpercent⟩

theorem separates_slash : Separates 47 := by decide

/-- An accepted path has safe segments, which the loop accepts. -/
theorem safeSegment_of_safeForwardPath {path : Text} (h : safeForwardPath path = true) :
    ∀ seg ∈ path.1.splitOn 47, SafeSegment seg ∧
      safeForwardPathRounds FORWARD_PATH_ROUNDS seg = true := by
  rw [safeForwardPath] at h
  split_ifs at h with hpath
  rw [not_or, not_or] at hpath
  obtain ⟨-, hcontrol, hbackslash⟩ := hpath
  intro seg hseg
  have hmem := Search.mem_of_mem_splitOn hseg
  have hpath : [47].intercalate (path.1.splitOn 47) = path.1 := intercalate_splitOn 47
  have hutf8 := path.2
  rw [← hpath, utf8Valid_intercalate (by decide)] at hutf8
  rw [← hpath, hasControl_intercalate (by decide) (by decide), any_eq_true, not_exists]
    at hcontrol
  have hacc := all_eq_true.1 h seg hseg
  rw [safeForwardPathSegment] at hacc
  split_ifs at hacc with hdots
  rw [not_or] at hdots
  refine ⟨⟨hdots.1, hdots.2, fun hslash => (hmem 47 hslash).2 rfl,
    fun hb => hbackslash (hmem 92 hb).1, ?_, hutf8 seg hseg⟩, hacc⟩
  exact Bool.eq_false_iff.2 fun hc => hcontrol seg ⟨hseg, hc⟩

/-- **However often an accepted path is decoded, it is a path of the same segments, decoded one by
one: none is `.` or `..`, and no separator, no backslash and no control character comes up.  The
strict decoding succeeds and agrees with the lenient one, and after three rounds nothing is left to
decode.** -/
theorem safe_forward_path_decoded (path : Text) (h : safeForwardPath path = true) (k : ℕ) :
    ∃ decoded, percentDecodeTimes k path.1 = some decoded ∧
      percentDecode^[k] path.1 = decoded ∧ utf8Valid decoded = true ∧
      decoded.splitOn 47 = (path.1.splitOn 47).map percentDecode^[k] ∧
      (∀ segment ∈ decoded.splitOn 47, segment ≠ ascii "." ∧ segment ≠ ascii "..") ∧
      decoded.count 47 = path.1.count 47 ∧ 92 ∉ decoded ∧ hasControl decoded = false ∧
      (FORWARD_PATH_ROUNDS ≤ k →
        percentDecodePathSegment decoded = some decoded ∧ percentDecode decoded = decoded) := by
  have hsegm := safeSegment_of_safeForwardPath h
  have hpath : [47].intercalate (path.1.splitOn 47) = path.1 := intercalate_splitOn 47
  -- every segment is decoded on its own, and stays safe
  have hdec : ∀ segment ∈ path.1.splitOn 47,
      percentDecodeTimes k segment = some (percentDecode^[k] segment) ∧
        SafeSegment (percentDecode^[k] segment) ∧
        (FORWARD_PATH_ROUNDS ≤ k → 37 ∉ percentDecode^[k] segment) := by
    intro segment hseg
    obtain ⟨hsafe, hround⟩ := hsegm segment hseg
    obtain ⟨decoded, htime, hdec, hpercent⟩ := hsafe.decoded hround k
    rw [iterate_percentDecode_of_times htime]
    exact ⟨htime, hdec, hpercent⟩
  have htime := percentDecodeTimes_intercalate separates_slash fun segment hseg =>
    (hdec segment hseg).1
  have hite := iterate_percentDecode_intercalate separates_slash k (path.1.splitOn 47)
  rw [hpath] at htime hite
  set segments := (path.1.splitOn 47).map percentDecode^[k] with hsegs
  have hsafe : ∀ segment ∈ segments, SafeSegment segment :=
    forall_mem_map.2 fun segment hseg => (hdec segment hseg).2.1
  have hne : segments ≠ [] := by
    rw [ne_eq, map_eq_nil_iff]
    exact splitOn_ne_nil 47 _
  have hsplit : ([47].intercalate segments).splitOn 47 = segments :=
    splitOn_intercalate 47 (fun segment hseg => (hsafe segment hseg).slash) hne
  have hmem : ∀ b ≠ 47, b ∈ [47].intercalate segments → ∃ segment ∈ segments, b ∈ segment :=
    fun b hb hin => (Search.mem_of_mem_intercalate hin).resolve_left fun hslash =>
      hb (mem_singleton.1 hslash)
  refine ⟨[47].intercalate segments, htime, hite,
    (utf8Valid_intercalate (by decide)).2 fun segment hseg => (hsafe segment hseg).utf8,
    hsplit, ?_, ?_, ?_, ?_, ?_⟩
  · rw [hsplit]
    exact fun segment hseg => ⟨(hsafe segment hseg).ne_dot, (hsafe segment hseg).ne_dots⟩
  · have hslashes := congrArg (count 47) hpath
    rw [count_intercalate fun segment hseg => (hsegm segment hseg).1.slash] at hslashes
    rw [count_intercalate fun segment hseg => (hsafe segment hseg).slash, length_map, hslashes]
  · intro hbackslash
    obtain ⟨segment, hseg, hin⟩ := hmem 92 (by decide) hbackslash
    exact (hsafe segment hseg).backslash hin
  · rw [hasControl_intercalate (by decide) (by decide), any_eq_false]
    exact fun segment hseg => Bool.eq_false_iff.1 (hsafe segment hseg).control
  · intro hk
    have hpercent : 37 ∉ [47].intercalate segments := fun hin => by
      obtain ⟨segment, hseg, hin⟩ := hmem 37 (by decide) hin
      obtain ⟨original, horig, rfl⟩ := mem_map.1 hseg
      exact (hdec original horig).2.2 hk hin
    exact ⟨percentDecodeStrict_of_not_mem hpercent, percentDecode_of_not_mem hpercent⟩

/-- The path `/caf%C3%A9/%2561`, whose last segment is decoded twice. -/
theorem safe_forward_path_decoded_twice :
    ∃ decoded, percentDecodeTimes 2 (ascii "/caf%C3%A9/%2561") = some decoded ∧
      decoded.count 47 = 2 := by
  obtain ⟨decoded, htime, -, -, -, -, hcount, -⟩ :=
    safe_forward_path_decoded ⟨ascii "/caf%C3%A9/%2561", by decide +kernel⟩ (by decide +kernel) 2
  exact ⟨decoded, htime, hcount⟩

end Fluxheim
