import Fluxheim.Server.ConnectionStream
import Fluxheim.Server.ProxyProtocol

/-!
# PROXY protocol headers are read back

All readers return the announced source and leave what follows the header, however the stream is cut
into segments; a source with a scope is returned without it.
-/

namespace Fluxheim.Server

open Ascii
open List hiding Vector

variable {sock : List Bytes} {x y body header trailing : Bytes}

theorem readSocket_one {b : UInt8} (h : sock.flatten = b :: y) :
    ∃ rest, readSocket 1 sock = ([b], rest) ∧ rest.flatten = y := by
  obtain ⟨hby, hlen, hempty⟩ := readSocket_spec one_pos sock
  cases hread : readSocket 1 sock with
  | mk chunk rest =>
    rw [hread] at hby hlen hempty
    rw [h] at hby hempty
    cases chunk with
    | nil => cases hempty.1 rfl
    | cons c chunk =>
      have hnil : chunk = [] := length_eq_zero_iff.1 (by simpa using hlen)
      subst hnil
      obtain ⟨rfl, hrest⟩ := cons.inj hby
      exact ⟨rest, rfl, hrest⟩

variable {fuel n : ℕ}

theorem readExactLoop_of_flatten (hfuel : x.length ≤ fuel) (read : Bytes)
    (h : sock.flatten = x ++ y) :
    ∃ rest, readExactLoop fuel x.length read sock = some (read ++ x, rest) ∧ rest.flatten = y := by
  induction fuel generalizing x read sock with
  | zero =>
    obtain rfl := length_eq_zero_iff.1 (Nat.le_zero.1 hfuel)
    exact ⟨sock, by rw [append_nil]; rfl, h⟩
  | succ fuel ih =>
    cases hx : x.length with
    | zero =>
      obtain rfl := length_eq_zero_iff.1 hx
      exact ⟨sock, by rw [append_nil]; rfl, h⟩
    | succ n =>
      obtain ⟨hby, hlen, hempty⟩ := readSocket_spec (Nat.succ_pos n) sock
      rw [readExactLoop]
      cases hread : readSocket (n + 1) sock with
      | mk chunk rest =>
        rw [hread] at hby hlen hempty
        dsimp only at hby hlen hempty ⊢
        -- the chunk is the beginning of what is read
        rw [h] at hby hempty
        obtain ⟨more, hmore⟩ : ∃ more, x = chunk ++ more := by
          have hle : chunk.length ≤ x.length := by omega
          refine ⟨x.drop chunk.length, ?_⟩
          have := congrArg (take chunk.length) hby
          rw [take_left, take_append_of_le_length hle] at this
          conv_lhs => rw [← take_append_drop chunk.length x, ← this]
        rw [hmore, append_assoc] at hby
        have hrest : rest.flatten = more ++ y := append_cancel_left hby
        have hsize : n + 1 = chunk.length + more.length := by
          rw [← hx, hmore, length_append]
        cases chunk with
        | nil =>
          have := (append_eq_nil_iff.1 (hempty.1 rfl)).1
          rw [this] at hx
          cases hx
        | cons c chunk =>
          obtain ⟨last, hloop, hlast⟩ := ih (x := more) (by simp at hsize; omega)
            (read ++ c :: chunk) hrest
          refine ⟨last, ?_, hlast⟩
          dsimp only
          rw [show n + 1 - (c :: chunk).length = more.length by omega, hloop, hmore, append_assoc]

/-- The bytes that come first are read, however they are cut. -/
theorem readExact_of_flatten (hn : x.length = n) (h : sock.flatten = x ++ y) :
    ∃ rest, readExact n sock = some (x, rest) ∧ rest.flatten = y := by
  subst hn
  exact readExactLoop_of_flatten le_rfl [] h

theorem not_crlf_suffix {line : Bytes} {b : UInt8} (hb : b ≠ 10) : ¬ crlf <:+ line ++ [b] := by
  rintro ⟨x, hx⟩
  have := congrArg getLast? hx
  rw [getLast?_append, getLast?_concat] at this
  exact hb (Option.some.inj this).symm

variable {parseIp : Bytes → Option IpAddr}

theorem readProxyProtocolV1Loop_line (hbody : 10 ∉ body)
    (hfuel : body.length + 2 ≤ fuel) (line : Bytes)
    (h : sock.flatten = body ++ (crlf ++ trailing)) :
    ∃ rest, readProxyProtocolV1Loop parseIp fuel line sock =
        parsedHeader .invalidData rest
          (parseDownstreamProxyProtocolV1 parseIp (line ++ body ++ crlf)) ∧
      rest.flatten = trailing := by
  induction body generalizing fuel line sock with
  | nil =>
    obtain ⟨fuel, rfl⟩ : ∃ n, fuel = n + 2 := ⟨fuel - 2, by omega⟩
    obtain ⟨next, hcr, hnext⟩ := readSocket_one (b := 13) h
    obtain ⟨rest, hlf, hrest⟩ := readSocket_one hnext
    rw [readProxyProtocolV1Loop, hcr]
    dsimp only
    rw [if_neg (not_crlf_suffix (by decide)), readProxyProtocolV1Loop, hlf]
    dsimp only
    rw [append_assoc, append_nil, show [13] ++ [10] = crlf from rfl,
      if_pos (suffix_append line crlf)]
    exact ⟨rest, rfl, hrest⟩
  | cons b body ih =>
    rw [mem_cons, not_or] at hbody
    obtain ⟨fuel, rfl⟩ : ∃ n, fuel = n + 1 := ⟨fuel - 1, by omega⟩
    obtain ⟨next, hread, hnext⟩ := readSocket_one h
    rw [readProxyProtocolV1Loop, hread]
    dsimp only
    rw [if_neg (not_crlf_suffix (Ne.symm hbody.1)), append_cons line b body]
    exact ih hbody.2 (by simp at hfuel; omega) (line ++ [b]) hnext

theorem readDownstreamProxyProtocolV1Loop_line (hbody : 10 ∉ body)
    (hfuel : body.length + 2 ≤ fuel) (line : Bytes)
    (hlen : line.length + body.length + 2 ≤ PROXY_PROTOCOL_V1_MAX_LINE)
    (h : sock.flatten = body ++ (crlf ++ trailing)) :
    ∃ rest, readDownstreamProxyProtocolV1Loop parseIp fuel line sock =
        parsedHeader .invalidInput rest
          (parseDownstreamProxyProtocolV1 parseIp (line ++ body ++ crlf)) ∧
      rest.flatten = trailing := by
  induction body generalizing fuel line sock with
  | nil =>
    obtain ⟨fuel, rfl⟩ : ∃ n, fuel = n + 2 := ⟨fuel - 2, by omega⟩
    obtain ⟨next, hcr, hnext⟩ := readSocket_one (b := 13) h
    obtain ⟨rest, hlf, hrest⟩ := readSocket_one hnext
    rw [readDownstreamProxyProtocolV1Loop, hcr]
    dsimp only
    rw [if_neg (by decide), if_neg (by simp at hlen ⊢; omega),
      readDownstreamProxyProtocolV1Loop, hlf]
    dsimp only
    rw [append_assoc, append_nil]
    exact ⟨rest, rfl, hrest⟩
  | cons b body ih =>
    rw [mem_cons, not_or] at hbody
    rw [length_cons] at hlen hfuel
    obtain ⟨fuel, rfl⟩ : ∃ n, fuel = n + 1 := ⟨fuel - 1, by omega⟩
    obtain ⟨next, hread, hnext⟩ := readSocket_one h
    have hbyte : [b] ≠ [10] := fun hb => hbody.1 (singleton_inj.1 hb).symm
    rw [readDownstreamProxyProtocolV1Loop, hread]
    dsimp only
    rw [if_neg hbyte, if_neg (by simp; omega), append_cons line b body]
    exact ih hbody.2 (by omega) (line ++ [b]) (by simp; omega) hnext

/-! ### Version 1 -/

/-- Two addresses of one version. -/
def IpAddr.sameFamily : IpAddr → IpAddr → Bool
  | .v4 _, .v4 _ => true
  | .v6 _, .v6 _ => true
  | _, _ => false

/-- The source that a header announces: its address and port, if there are both addresses and they
are of one family. -/
def announcedSource : Option SocketAddr → Option SocketAddr → Option SocketAddr
  | some source, some destination =>
    if source.ip.sameFamily destination.ip then some (.new source.ip source.port) else none
  | _, _ => none

theorem isWord_decimal (n : ℕ) : IsWord (decimal n) :=
  ⟨decimal_ne_nil n, fun _ => isVisible_of_mem_decimal⟩

theorem parseProxyProtocolPort_decimal (port : UInt16) :
    parseProxyProtocolPort (decimal port.toNat) = .ok port := by
  have hlt := port.toNat_lt
  rw [parseProxyProtocolPort, parseUnsigned_decimal (by omega)]
  exact congrArg Except.ok (UInt16.ofNat_toNat)

theorem length_decimal_port_le (port : UInt16) : (decimal port.toNat).length ≤ 5 :=
  length_decimal_le (by omega) (lt_trans port.toNat_lt (by decide))

/-- Words with spaces between them and a line end are parsed as these words. -/
theorem parseDownstreamProxyProtocolV1_words {words : List Bytes} (hword : ∀ w ∈ words, IsWord w)
    (hlen : ([32].intercalate words).length + 2 ≤ PROXY_PROTOCOL_V1_MAX_LINE) :
    ¬ PROXY_PROTOCOL_V1_MAX_LINE < ([32].intercalate words ++ crlf).length ∧
      utf8Valid ([32].intercalate words ++ crlf) = true ∧
      crlf <:+ [32].intercalate words ++ crlf ∧
      splitWhitespace (([32].intercalate words ++ crlf).take
        (([32].intercalate words ++ crlf).length - 2)) = words ∧
      10 ∉ [32].intercalate words := by
  have hby : ∀ b ∈ [32].intercalate words, b = 32 ∨ isVisible b = true := by
    intro b hb
    rcases Search.mem_of_mem_intercalate hb with hb | ⟨w, hw, hb⟩
    · exact .inl (mem_singleton.1 hb)
    · exact .inr ((hword w hw).2 b hb)
  have hends : ∀ b ∈ crlf, b < 0x80 := by decide +kernel
  have hcrlf : ([32].intercalate words ++ crlf).length = ([32].intercalate words).length + 2 := by
    rw [length_append, crlf_length]
  refine ⟨by omega, utf8Valid_of_ascii fun b hb => ?_, suffix_append _ _, ?_, fun hlf => ?_⟩
  · rcases mem_append.1 hb with hb | hb
    · rcases hby b hb with rfl | hvisible
      · decide
      · rw [isVisible, Bool.and_eq_true, decide_eq_true_eq, decide_eq_true_eq] at hvisible
        exact hvisible.2
    · exact hends b hb
  · rw [hcrlf, Nat.add_sub_cancel, take_left, splitWhitespace_intercalate hword]
  · rcases hby 10 hlf with h | h
    · exact absurd h (by decide)
    · exact absurd h (by decide)

/-- A header of version 1: words that fit on the line. -/
structure V1Header (parseIp : Bytes → Option IpAddr) (header : Bytes) (source : Option SocketAddr) :
    Prop where
  line : ∃ body, header = body ++ crlf ∧ 10 ∉ body ∧ body.length + 2 ≤ PROXY_PROTOCOL_V1_MAX_LINE
  parsed : parseDownstreamProxyProtocolV1 parseIp header = .ok source

theorem v1Header_unknown : V1Header parseIp (ascii "PROXY UNKNOWN" ++ crlf) none := by
  have hline : [32].intercalate [ascii "PROXY", ascii "UNKNOWN"] =
    ascii "PROXY UNKNOWN" := by decide
  have hword : ∀ w ∈ [ascii "PROXY", ascii "UNKNOWN"], IsWord w := by
    unfold IsWord
    decide +kernel
  have h := parseDownstreamProxyProtocolV1_words hword (by decide)
  rw [hline] at h
  obtain ⟨hlen, hutf8, hcrlf, hsplit, hlf⟩ := h
  refine ⟨⟨_, rfl, hlf, by decide⟩, ?_⟩
  rw [parseDownstreamProxyProtocolV1, if_neg hlen, if_neg Bool.noConfusion,
    if_neg (not_not.2 hcrlf), hsplit]
  dsimp only
  rw [if_neg (not_not.2 rfl), if_pos rfl]

theorem v1Header_line {family : String} {src dst : SocketAddr}
    (hfamily : IsWord (ascii family)) (hlen : (ascii family).length = 4)
    (hunk : ascii family ≠ ascii "UNKNOWN") {result : Option SocketAddr}
    (hfields : parseProxyV1Fields parseIp (ascii family) src.ip.display dst.ip.display
      (decimal src.port.toNat) (decimal dst.port.toNat) = .ok result) :
    V1Header parseIp (proxyV1Line family src dst) result := by
  set words := [ascii "PROXY", ascii family, src.ip.display, dst.ip.display,
    decimal src.port.toNat, decimal dst.port.toNat] with hdef
  have hword : ∀ w ∈ words, IsWord w := by
    rw [hdef]
    simp only [forall_mem_cons]
    exact ⟨by unfold IsWord; decide +kernel, hfamily, isWord_display _, isWord_display _,
      isWord_decimal _, isWord_decimal _, forall_mem_nil _⟩
  have hfits : ([32].intercalate words).length + 2 ≤ PROXY_PROTOCOL_V1_MAX_LINE := by
    have hsource := length_display_le src.ip
    have hdest := length_display_le dst.ip
    have hport := length_decimal_port_le src.port
    have hdes := length_decimal_port_le dst.port
    simp only [hdef, intercalate_cons_cons, intercalate_singleton, length_append,
      length_singleton, hlen, show (ascii "PROXY").length = 5 from rfl]
    rw [PROXY_PROTOCOL_V1_MAX_LINE]
    omega
  obtain ⟨hlong, hutf8, hcrlf, hsplit, hlf⟩ := parseDownstreamProxyProtocolV1_words hword hfits
  refine ⟨⟨_, rfl, hlf, hfits⟩, ?_⟩
  rw [proxyV1Line, parseDownstreamProxyProtocolV1, if_neg hlong, hutf8,
    if_neg Bool.noConfusion, if_neg (not_not.2 hcrlf), hsplit, hdef]
  dsimp only
  rw [if_neg (not_not.2 rfl), if_neg hunk, hfields]

/-- The fields of a line are read as the source. -/
theorem parseProxyV1Fields_display {family : Bytes} {src dst : SocketAddr}
    (hsource : parseIp src.ip.display = some src.ip) (hdest : parseIp dst.ip.display = some dst.ip)
    (hfamily : match src.ip, dst.ip with
      | .v4 _, .v4 _ => family = ascii "TCP4"
      | .v6 _, .v6 _ => family = ascii "TCP6"
      | _, _ => False) :
    parseProxyV1Fields parseIp family src.ip.display dst.ip.display
      (decimal src.port.toNat) (decimal dst.port.toNat) =
        .ok (some (.new src.ip src.port)) := by
  rw [parseProxyV1Fields, hsource, hdest, parseProxyProtocolPort_decimal,
    parseProxyProtocolPort_decimal]
  revert hfamily
  cases src.ip <;> cases dst.ip <;> intro hfamily <;>
    first
      | exact hfamily.elim
      | (subst hfamily; rfl)

variable {src : Option SocketAddr}

/-- **A header of version 1** announces the source. -/
theorem v1Header_proxyProtocolV1Header {dst : Option SocketAddr}
    (hparse : ∀ addr ∈ src.toList ++ dst.toList,
      parseIp addr.ip.display = some addr.ip) :
    V1Header parseIp (proxyProtocolV1Header src dst)
      (announcedSource src dst) := by
  cases src with
  | none => exact v1Header_unknown
  | some src =>
    cases dst with
    | none => exact v1Header_unknown
    | some dst =>
      have hsource := hparse src (by simp)
      have hdest := hparse dst (by simp)
      have hfields {family : Bytes} := @parseProxyV1Fields_display parseIp family src dst
        hsource hdest
      have hline {family : String} (hfamily : IsWord (ascii family))
          (hlen : (ascii family).length = 4) (hunk : ascii family ≠ ascii "UNKNOWN") hmatch :=
        v1Header_line hfamily hlen hunk (@hfields (ascii family) hmatch)
      have htcp4 : IsWord (ascii "TCP4") := by unfold IsWord; decide +kernel
      have htcp6 : IsWord (ascii "TCP6") := by unfold IsWord; decide +kernel
      rw [proxyProtocolV1Header, announcedSource]
      cases hs : src.ip with
      | v4 os =>
        cases hd : dst.ip with
        | v4 os' =>
          have h := hline htcp4 rfl (by decide) (by rw [hs, hd])
          rw [hs] at h
          exact h
        | v6 os' => exact v1Header_unknown
      | v6 os =>
        cases hd : dst.ip with
        | v4 os' => exact v1Header_unknown
        | v6 os' =>
          have h := hline htcp6 rfl (by decide) (by rw [hs, hd])
          rw [hs] at h
          exact h

/-! ### Version 2 -/

theorem u16FromBeBytes_toBeBytes (n : UInt16) :
    u16FromBeBytes (UInt8.ofNat (n.toNat / 256)) (UInt8.ofNat (n.toNat % 256)) = n := by
  have hlt := n.toNat_lt
  rw [u16FromBeBytes, UInt8.toNat_ofNat', UInt8.toNat_ofNat',
    show n.toNat / 256 % 2 ^ 8 * 256 + n.toNat % 256 % 2 ^ 8 = n.toNat by omega, UInt16.ofNat_toNat]

/-- A header of version 2: a fixed part that announces the length of what follows it. -/
structure V2Header (header : Bytes) (source : Option SocketAddr) : Prop where
  parts : ∃ fixed payload, header = fixed ++ payload ∧
    fixed.length = PROXY_PROTOCOL_V2_HEADER_LEN ∧
    fixed.take PROXY_PROTOCOL_V2_SIGNATURE.length = PROXY_PROTOCOL_V2_SIGNATURE ∧
    (u16FromBeBytes (fixed.getD 14 0) (fixed.getD 15 0)).toNat = payload.length ∧
    payload.length ≤ PROXY_PROTOCOL_V2_MAX_PAYLOAD ∧
    parseDownstreamProxyProtocolV2 fixed payload = .ok source

theorem v2Header_unspecified :
    V2Header (PROXY_PROTOCOL_V2_SIGNATURE ++ [0x21, 0x00, 0x00, 0x00]) none :=
  ⟨_, [], (append_nil _).symm, by decide, by decide, by decide, by decide, by decide⟩

/-- The payload of addresses of `n` octets. -/
def v2Payload {n : ℕ} (source destination : Vector UInt8 n) (sourcePort destinationPort : UInt16) :
    Bytes :=
  source.toList ++ destination.toList ++ u16ToBeBytes sourcePort ++ u16ToBeBytes destinationPort

theorem length_v2Payload (src dst : Vector UInt8 n) (sport dport : UInt16) :
    (v2Payload src dst sport dport).length = 2 * n + 4 := by
  simp [v2Payload, u16ToBeBytes]
  omega

/-- The source port stands after both addresses. -/
theorem getD_v2Payload (src dst : Vector UInt8 n) (sourcePort dport : UInt16) :
    u16FromBeBytes ((v2Payload src dst sourcePort dport).getD (2 * n) 0)
      ((v2Payload src dst sourcePort dport).getD (2 * n + 1) 0) =
        sourcePort := by
  have hlen : (src.toList ++ dst.toList).length = 2 * n := by
    rw [length_append, Vector.length_toList, Vector.length_toList, two_mul]
  have hget (i : ℕ) : (v2Payload src dst sourcePort dport).getD (2 * n + i) 0 =
      (u16ToBeBytes sourcePort ++ u16ToBeBytes dport).getD i 0 := by
    rw [v2Payload, append_assoc, getD_eq_getElem?_getD,
      getElem?_append_right (by omega), hlen, Nat.add_sub_cancel_left,
      ← getD_eq_getElem?_getD]
  rw [hget 1, ← add_zero (2 * n), hget 0]
  exact u16FromBeBytes_toBeBytes sourcePort

theorem take_v2Payload (src dst : Vector UInt8 n) (sport dport : UInt16) :
    (v2Payload src dst sport dport).take n = src.toList := by
  rw [v2Payload, append_assoc, append_assoc, take_left' (Vector.length_toList ..)]

theorem v2Header_tcp4 (source dst : Vector UInt8 4) (sport dport : UInt16) :
    V2Header (PROXY_PROTOCOL_V2_SIGNATURE ++ ([0x21, 0x11, 0x00, 0x0c] ++
      v2Payload source dst sport dport)) (some (.new (.v4 source) sport)) := by
  have hlen := length_v2Payload source dst sport dport
  have htake := take_v2Payload source dst sport dport
  have hport := getD_v2Payload source dst sport dport
  generalize v2Payload source dst sport dport = payload at *
  refine ⟨PROXY_PROTOCOL_V2_SIGNATURE ++ [0x21, 0x11, 0x00, 0x0c], payload,
    (append_assoc ..).symm, by decide, by decide, by rw [hlen]; decide, by rw [hlen]; decide, ?_⟩
  have hsource : (Vector.ofFn fun i : Fin 4 => payload.getD i 0) = source := by
    refine Vector.ext fun i hi => ?_
    rw [Vector.getElem_ofFn, getD_eq_getElem?_getD, ← getElem?_take_of_lt hi, htake]
    simp [hi]
  rw [parseDownstreamProxyProtocolV2, if_neg (by rw [hlen]; decide), if_neg (by decide),
    if_neg (by decide), if_neg (by decide), if_neg (by decide), if_pos (by decide),
    if_neg (by rw [hlen]; decide), hsource, hport]

theorem v2Header_tcp6 (source dst : Vector UInt8 16) (sport dport : UInt16) :
    V2Header (PROXY_PROTOCOL_V2_SIGNATURE ++ ([0x21, 0x21, 0x00, 0x24] ++
      v2Payload source dst sport dport)) (some (.new (.v6 source) sport)) := by
  have hlen := length_v2Payload source dst sport dport
  have htake := take_v2Payload source dst sport dport
  have hport := getD_v2Payload source dst sport dport
  generalize v2Payload source dst sport dport = payload at *
  refine ⟨PROXY_PROTOCOL_V2_SIGNATURE ++ [0x21, 0x21, 0x00, 0x24], payload,
    (append_assoc ..).symm, by decide, by decide, by rw [hlen]; decide, by rw [hlen]; decide, ?_⟩
  have hsize : (payload.take 16).length = 16 := by rw [htake, Vector.length_toList]
  have hsource : (⟨(payload.take 16).toArray, hsize⟩ : Vector UInt8 16) = source := by
    refine Vector.toArray_inj.1 ?_
    show (payload.take 16).toArray = source.toArray
    rw [htake]
    exact Array.toArray_toList
  rw [parseDownstreamProxyProtocolV2, if_neg (by rw [hlen]; decide), if_neg (by decide),
    if_neg (by decide), if_neg (by decide), if_neg (by decide), if_neg (by decide),
    if_pos (by decide), if_neg (by rw [hlen]; decide), dif_pos hsize, hport, hsource]

/-- **A header of version 2** announces the source. -/
theorem v2Header_proxyProtocolV2Header (src dst : Option SocketAddr) :
    V2Header (proxyProtocolV2Header src dst) (announcedSource src dst) := by
  cases src with
  | none => exact v2Header_unspecified
  | some src =>
    cases dst with
    | none => exact v2Header_unspecified
    | some dst =>
      rw [proxyProtocolV2Header, announcedSource]
      cases src.ip with
      | v4 os =>
        cases dst.ip with
        | v4 os' => exact v2Header_tcp4 os os' src.port dst.port
        | v6 os' => exact v2Header_unspecified
      | v6 os =>
        cases dst.ip with
        | v4 os' => exact v2Header_unspecified
        | v6 os' => exact v2Header_tcp6 os os' src.port dst.port

theorem V1Header.read (hheader : V1Header parseIp header src)
    (h : sock.flatten = header ++ trailing) :
    (∃ rest, readProxyProtocolV1Source parseIp sock = .ok (src, rest) ∧
      rest.flatten = trailing) ∧
    ∃ rest, readDownstreamProxyProtocolV1 parseIp sock = .ok (src, rest) ∧
      rest.flatten = trailing := by
  obtain ⟨body, rfl, hbody, hlen⟩ := hheader.line
  rw [append_assoc] at h
  obtain ⟨rest, hread, hrest⟩ := @readProxyProtocolV1Loop_line _ _ _ _ parseIp hbody hlen [] h
  obtain ⟨rest', hread', hrest'⟩ := @readDownstreamProxyProtocolV1Loop_line _ _ _ _ parseIp
    hbody hlen [] (by simpa using hlen) h
  rw [nil_append, hheader.parsed] at hread hread'
  exact ⟨⟨rest, hread, hrest⟩, rest', hread', hrest'⟩

theorem V2Header.read (hheader : V2Header header src) (h : sock.flatten = header ++ trailing) :
    (∃ rest, readProxyProtocolV2Source sock = .ok (src, rest) ∧ rest.flatten = trailing) ∧
    ∃ rest, readDownstreamProxyProtocolV2 sock = .ok (src, rest) ∧
      rest.flatten = trailing := by
  obtain ⟨fixed, payload, rfl, hfix, hsig, hdecl, hlen, hparsed⟩ := hheader.parts
  rw [append_assoc] at h
  obtain ⟨next, hread, hnext⟩ := readExact_of_flatten hfix h
  obtain ⟨rest, hpay, hrest⟩ := readExact_of_flatten rfl hnext
  refine ⟨⟨rest, ?_, hrest⟩, rest, ?_, hrest⟩
  · rw [readProxyProtocolV2Source, hread]
    dsimp only
    rw [hdecl, if_neg (not_lt.2 hlen), hpay]
    dsimp only
    rw [hparsed]
    rfl
  · rw [readDownstreamProxyProtocolV2, hread]
    dsimp only
    rw [if_neg (not_not.2 hsig), hdecl, if_neg (not_lt.2 hlen), hpay]
    dsimp only
    rw [hparsed]
    rfl

/-- **Every header is read back**: whatever follows it and however the stream is cut, both readers
of each version stop after the header and return the address and port of the source, if there are
two addresses of one family, and no address otherwise. -/
theorem proxy_protocol_round_trip (parseIp : Bytes → Option IpAddr)
    (source destination : Option SocketAddr) (trailing : Bytes)
    (hparse : ∀ addr ∈ source.toList ++ destination.toList,
      parseIp addr.ip.display = some addr.ip) (socket : List Bytes) :
    (socket.flatten = proxyProtocolV1Header source destination ++ trailing →
      (∃ rest, readProxyProtocolV1Source parseIp socket =
        .ok (announcedSource source destination, rest) ∧ rest.flatten = trailing) ∧
      ∃ rest, readDownstreamProxyProtocolV1 parseIp socket =
        .ok (announcedSource source destination, rest) ∧ rest.flatten = trailing) ∧
    (socket.flatten = proxyProtocolV2Header source destination ++ trailing →
      (∃ rest, readProxyProtocolV2Source socket =
        .ok (announcedSource source destination, rest) ∧ rest.flatten = trailing) ∧
      ∃ rest, readDownstreamProxyProtocolV2 socket =
        .ok (announcedSource source destination, rest) ∧ rest.flatten = trailing) :=
  ⟨(v1Header_proxyProtocolV1Header hparse).read, (v2Header_proxyProtocolV2Header ..).read⟩

/-- The address `[fe80::1]:443` in a scope. -/
def linkLocal (scopeId : UInt32) : SocketAddr :=
  .v6 ⟨#[0xfe, 0x80, 0, 0, 0, 0, 0, 0, 0, 0, 0, 0, 0, 0, 0, 1], rfl⟩ 443 0 scopeId

/-- A parser of this address. -/
def parseLinkLocal (x : Bytes) : Option IpAddr :=
  if x = ascii "fe80::1" then some (linkLocal 0).ip else none

/-- Reading `PROXY TCP6 fe80::1 fe80::1 443 443`, which arrives byte by byte, before a request. -/
theorem proxy_protocol_round_trip_linkLocal :
    ∃ rest, readProxyProtocolV1Source parseLinkLocal
        ((proxyProtocolV1Header (some (linkLocal 0)) (some (linkLocal 0)) ++ ascii "GET /").map
          ([·])) = .ok (some (linkLocal 0), rest) ∧ rest.flatten = ascii "GET /" := by
  obtain ⟨hfirst, -⟩ := proxy_protocol_round_trip parseLinkLocal (some (linkLocal 0))
    (some (linkLocal 0)) (ascii "GET /") (by decide +kernel)
    ((proxyProtocolV1Header (some (linkLocal 0)) (some (linkLocal 0)) ++ ascii "GET /").map ([·]))
  exact (hfirst (by decide +kernel)).1

/-- **A source with a scope** comes back without it: the header has no place for a scope. -/
theorem scoped_source_is_not_returned :
    readProxyProtocolV2Source
        [proxyProtocolV2Header (some (linkLocal 2)) (some (linkLocal 2)), ascii "GET /"] =
      .ok (some (linkLocal 0), [[], ascii "GET /"]) ∧ linkLocal 0 ≠ linkLocal 2 := by
  decide +kernel

end Fluxheim.Server
