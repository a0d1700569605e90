import Fluxheim.Lib.TextLines
import Fluxheim.Lib.WhiteSpace
import Fluxheim.Server.RateLimit

/-!
# Addresses and their texts

The text of an address is a word of at most 41 bytes.
-/

namespace Fluxheim.Server

open Ascii
open List hiding Vector

/-- An address and a port; one of version 6 has flow information and a scope too. -/
inductive SocketAddr where
  | v4 (octets : Vector UInt8 4) (port : UInt16)
  | v6 (octets : Vector UInt8 16) (port : UInt16) (flowinfo scopeId : UInt32)
  deriving DecidableEq

namespace SocketAddr

/-- The address. -/
def ip : SocketAddr → IpAddr
  | .v4 octets _ => .v4 octets
  | .v6 octets .. => .v6 octets

/-- The port. -/
def port : SocketAddr → UInt16
  | .v4 _ port => port
  | .v6 _ port .. => port

/-- An address and a port, without flow information or scope. -/
def new : IpAddr → UInt16 → SocketAddr
  | .v4 octets, port => .v4 octets port
  | .v6 octets, port => .v6 octets port 0 0

end SocketAddr

/-- A number below `2 ^ 16` in lower-case hexadecimal digits. -/
def hexNumber (n : ℕ) : Bytes :=
  ([n / 4096 % 16, n / 256 % 16, n / 16 % 16].dropWhile (· = 0) ++ [n % 16]).map hexDigit

/-- The text of an address of version 4. -/
def displayV4 (octets : Vector UInt8 4) : Bytes :=
  [46].intercalate (octets.toList.map fun octet => decimal octet.toNat)

variable (octets : Vector UInt8 16)

/-- `Ipv6Addr::segments`. -/
def ipv6Segments : List ℕ :=
  (List.finRange 8).map fun i => octets[2 * i.1].toNat * 256 + octets[2 * i.1 + 1].toNat

/-- The address of version 4 that is mapped to this one. -/
def toIpv4Mapped : Option (Vector UInt8 4) :=
  if octets.toList.take 12 = [0, 0, 0, 0, 0, 0, 0, 0, 0, 0, 0xff, 0xff] then
    some (Vector.ofFn fun i : Fin 4 => octets[12 + i.1])
  else none

/-- A run of zero segments. -/
structure ZeroSpan where
  start : ℕ := 0
  len : ℕ := 0

/-- The loop that finds the longest run of zeros among the segments from the given position on. -/
def zeroSpanLoop : ZeroSpan → ZeroSpan → ℕ → List ℕ → ZeroSpan
  | longest, _, _, [] => longest
  | longest, current, i, segment :: segments =>
    if segment = 0 then
      let current : ZeroSpan := ⟨if current.len = 0 then i else current.start, current.len + 1⟩
      zeroSpanLoop (if longest.len < current.len then current else longest) current (i + 1) segments
    else zeroSpanLoop longest {} (i + 1) segments

/-- Segments with colons between them. -/
def displaySegments (segments : List ℕ) : Bytes := [58].intercalate (segments.map hexNumber)

/-- The text of an address of version 6. -/
def displayV6 : Bytes :=
  match toIpv4Mapped octets with
  | some mapped => ascii "::ffff:" ++ displayV4 mapped
  | none =>
    let segments := ipv6Segments octets
    let zeroes := zeroSpanLoop {} {} 0 segments
    if 1 < zeroes.len then
      displaySegments (segments.take zeroes.start) ++ ascii "::" ++
        displaySegments (segments.drop (zeroes.start + zeroes.len))
    else displaySegments segments

/-- The text of an address. -/
def IpAddr.display : IpAddr → Bytes
  | .v4 octets => displayV4 octets
  | .v6 octets => displayV6 octets

/-- The addresses `2001:db8::1`, `::`, `::ffff:10.0.0.1`, and one without zeros to leave out. -/
example : (IpAddr.v6 ⟨#[0x20, 1, 0xd, 0xb8, 0, 0, 0, 0, 0, 0, 0, 0, 0, 0, 0, 1], rfl⟩).display =
    ascii "2001:db8::1" ∧
    (IpAddr.v6 ⟨#[0, 0, 0, 0, 0, 0, 0, 0, 0, 0, 0, 0, 0, 0, 0, 0], rfl⟩).display = ascii "::" ∧
    (IpAddr.v6 ⟨#[0, 0, 0, 0, 0, 0, 0, 0, 0, 0, 0xff, 0xff, 10, 0, 0, 1], rfl⟩).display =
      ascii "::ffff:10.0.0.1" ∧
    (IpAddr.v6 ⟨#[0xfe, 0x80, 0, 0, 0, 1, 0, 2, 0, 3, 0, 4, 0, 5, 0, 6], rfl⟩).display =
      ascii "fe80:0:1:2:3:4:5:6" := by
  decide +kernel

variable {b : UInt8}

theorem isVisible_of_isHexDigit : isHexDigit b = true → isVisible b = true := by
  revert b
  apply forall_byte
  decide +kernel

theorem isVisible_of_mem_decimal {n : ℕ} (h : b ∈ decimal n) : isVisible b = true :=
  isVisible_of_isHexDigit (isHexDigit_of_isDigit (isDigit_of_mem_decimal h))

theorem isVisible_of_mem_hexNumber {n : ℕ} (h : b ∈ hexNumber n) : isVisible b = true := by
  obtain ⟨d, hd, rfl⟩ := mem_map.1 h
  refine isVisible_of_isHexDigit (hexDigit_spec ?_).2
  rcases mem_append.1 hd with hd | hd
  · have := (dropWhile_sublist _).mem hd
    simp only [mem_cons, not_mem_nil, or_false] at this
    omega
  · rw [mem_singleton.1 hd]
    omega

theorem length_hexNumber_le (n : ℕ) : (hexNumber n).length ≤ 4 := by
  have := (dropWhile_sublist (l := [n / 4096 % 16, n / 256 % 16, n / 16 % 16])
    (p := (· = 0))).length_le
  rw [hexNumber, length_map, length_append]
  exact Nat.add_le_add_right this 1

/-- Pieces of bounded length with a separator between them. -/
theorem length_intercalate_le {a : UInt8} {pieces : List Bytes} {k : ℕ}
    (h : ∀ p ∈ pieces, p.length ≤ k) :
    ([a].intercalate pieces).length ≤ pieces.length * (k + 1) - 1 := by
  induction pieces with
  | nil => exact Nat.zero_le _
  | cons p pieces ih =>
    rw [forall_mem_cons] at h
    cases pieces with
    | nil => simpa using h.1
    | cons q pieces =>
      have := ih h.2
      rw [intercalate_cons_cons, length_append, length_append, length_singleton]
      simp only [length_cons, add_mul, one_mul] at this ⊢
      omega

theorem isVisible_of_mem_displayV4 {os : Vector UInt8 4}
    (h : b ∈ displayV4 os) : isVisible b = true := by
  rcases Search.mem_of_mem_intercalate h with h | ⟨piece, hpiece, h⟩
  · rw [mem_singleton.1 h]
    decide
  · obtain ⟨octet, -, rfl⟩ := mem_map.1 hpiece
    exact isVisible_of_mem_decimal h

theorem length_displayV4_le (os : Vector UInt8 4) : (displayV4 os).length ≤ 15 := by
  have := @length_intercalate_le 46 (os.toList.map fun octet => decimal octet.toNat) 3
    (forall_mem_map.2 fun octet _ =>
      length_decimal_le (by omega) (lt_trans octet.toNat_lt (by decide)))
  rwa [length_map, Vector.length_toList] at this

theorem isVisible_of_mem_displaySegments {segs : List ℕ}
    (h : b ∈ displaySegments segs) : isVisible b = true := by
  rcases Search.mem_of_mem_intercalate h with h | ⟨piece, hpiece, h⟩
  · rw [mem_singleton.1 h]
    decide
  · obtain ⟨seg, -, rfl⟩ := mem_map.1 hpiece
    exact isVisible_of_mem_hexNumber h

theorem length_displaySegments_le (segs : List ℕ) :
    (displaySegments segs).length ≤ segs.length * 5 - 1 := by
  have := @length_intercalate_le 58 (segs.map hexNumber) 4
    (forall_mem_map.2 fun seg _ => length_hexNumber_le seg)
  rwa [length_map] at this

theorem displayV4_ne_nil (os : Vector UInt8 4) : displayV4 os ≠ [] := by
  have hlen : os.toList.length = 4 := by simp
  cases h : os.toList with
  | nil =>
    rw [h] at hlen
    cases hlen
  | cons octet rest =>
    cases rest with
    | nil => simp [h] at hlen
    | cons octet' rest => simp [displayV4, h, intercalate_cons_cons, decimal_ne_nil]

theorem displaySegments_ne_nil {segs : List ℕ} (h : segs ≠ []) : displaySegments segs ≠ [] := by
  obtain ⟨seg, rest, rfl⟩ := exists_cons_of_ne_nil h
  cases rest with
  | nil => simp [displaySegments, hexNumber]
  | cons seg' rest => simp [displaySegments, intercalate_cons_cons]

theorem length_ipv6Segments (os : Vector UInt8 16) : (ipv6Segments os).length = 8 := by
  rw [ipv6Segments, length_map, length_finRange]

/-- The text of an address is a word. -/
theorem isWord_display (ip : IpAddr) : IsWord ip.display := by
  cases ip with
  | v4 os => exact ⟨displayV4_ne_nil os, fun b => isVisible_of_mem_displayV4⟩
  | v6 os =>
    have hcolon : ∀ b ∈ ascii "::ffff:", isVisible b = true := by decide +kernel
    rw [IpAddr.display, displayV6]
    split
    · refine ⟨by simp [ascii], fun b hb => ?_⟩
      rcases mem_append.1 hb with hb | hb
      · exact hcolon b hb
      · exact isVisible_of_mem_displayV4 hb
    · dsimp only
      split_ifs
      · refine ⟨by simp [ascii], fun b hb => ?_⟩
        rw [mem_append, mem_append] at hb
        rcases hb with (hb | hb) | hb
        · exact isVisible_of_mem_displaySegments hb
        · exact hcolon b (mem_of_mem_take (i := 2) hb)
        · exact isVisible_of_mem_displaySegments hb
      · refine ⟨displaySegments_ne_nil fun hnil => ?_, fun b => isVisible_of_mem_displaySegments⟩
        have := length_ipv6Segments os
        rw [hnil] at this
        cases this

theorem length_display_le (ip : IpAddr) : ip.display.length ≤ 41 := by
  cases ip with
  | v4 os => exact (length_displayV4_le os).trans (by omega)
  | v6 os =>
    rw [IpAddr.display, displayV6]
    split
    · rename_i mapped _
      have := length_displayV4_le mapped
      rw [length_append, show (ascii "::ffff:").length = 7 from rfl]
      omega
    · dsimp only
      have hlen := length_ipv6Segments os
      split_ifs
      · generalize zeroSpanLoop {} {} 0 (ipv6Segments os) = zeroes
        have hpre := length_displaySegments_le ((ipv6Segments os).take zeroes.start)
        have hafter := length_displaySegments_le
          ((ipv6Segments os).drop (zeroes.start + zeroes.len))
        rw [length_take] at hpre
        rw [length_drop] at hafter
        rw [length_append, length_append, show (ascii "::").length = 2 from rfl]
        omega
      · have := length_displaySegments_le (ipv6Segments os)
        omega

end Fluxheim.Server
