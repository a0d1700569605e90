import Fluxheim.Http1.ChunkedMachine

/-!
# What the chunked decoder keeps

A decoder that is pushed to again and again, and waits for more each time, holds a bounded number of
bytes however many were pushed, and its counters stay within the limits.
-/

namespace Fluxheim

open Ascii Fallible Search

theorem okOr_checkedAdd {a b c : ℕ} {e : Http1ParseError} :
    okOr (checkedAdd a b) e = .ok c ↔ a + b ≤ usizeMax ∧ c = a + b := by
  rw [okOr_eq_ok, checkedAdd]
  split_ifs with h
  · simp only [h, Option.some.injEq, true_and, eq_comm]
  · simp [h]

namespace Http1ChunkedDecoder

/-- The unread bytes of the buffer. -/
def unread (d : Http1ChunkedDecoder) : ℕ := d.input.length - d.inputOffset

/-- The most that a size line takes after what compaction left. -/
def lineRoom (limits : Http1ChunkLimits) : Http1ChunkedDecodeState → ℕ
  | .size => 0
  | _ => limits.maxChunkLineBytes + 2

/-- What holds of a decoder between two turns of its loop. -/
structure Kept (limits : Http1ChunkLimits) (d : Http1ChunkedDecoder) : Prop where
  limits_eq : d.limits = limits
  offset_le : d.inputOffset ≤ d.input.length
  offset_fits : d.inputOffset ≤ usizeMax
  scan_ge : d.inputOffset ≤ d.lineScanOffset
  size_le : ∀ size, d.state = .data size → size ≤ limits.maxChunkSize
  base : ∃ base, d.inputOffset ≤ base + lineRoom limits d.state ∧
    (base ≤ HTTP1_CHUNK_COMPACT_THRESHOLD_BYTES ∨ 2 * base ≤ d.input.length)
  decoded_le : d.decodedLen ≤ limits.maxBodyBytes
  received_le : d.receivedLen ≤ limits.maxEncodedBytes

/-- A decoder that waits has less unread than a chunk or a line takes. -/
def Waiting (limits : Http1ChunkLimits) (d : Http1ChunkedDecoder) : Prop :=
  d.unread ≤ max (limits.maxChunkSize : ℕ) limits.maxChunkLineBytes + 1

variable {limits : Http1ChunkLimits} {d d' : Http1ChunkedDecoder}

theorem kept_new (limits : Http1ChunkLimits) : (new limits).Kept limits where
  limits_eq := rfl
  offset_le := Nat.zero_le _
  offset_fits := Nat.zero_le _
  scan_ge := le_refl _
  size_le := by
    intro size h
    cases h
  base := ⟨0, Nat.zero_le _, .inl (Nat.zero_le _)⟩
  decoded_le := Nat.zero_le _
  received_le := Nat.zero_le _

theorem waiting_new (limits : Http1ChunkLimits) : (new limits).Waiting limits := Nat.zero_le _

/-- More input keeps the invariant. -/
theorem Kept.extend (h : d.Kept limits) (fragment : Bytes) {receivedLen : ℕ}
    (hrecv : receivedLen ≤ limits.maxEncodedBytes) :
    Kept limits { d with input := d.input ++ fragment, receivedLen := receivedLen } := by
  obtain ⟨base, hbase, hleft⟩ := h.base
  refine ⟨h.limits_eq, ?_, h.offset_fits, h.scan_ge, h.size_le, ⟨base, hbase, ?_⟩, h.decoded_le,
    hrecv⟩
  · exact h.offset_le.trans (by simp)
  · refine hleft.imp_right fun hhalf => hhalf.trans ?_
    simp

/-- The bound on the whole buffer of a decoder that waits. -/
theorem Kept.length_le (h : d.Kept limits) (hwait : d.Waiting limits) :
    d.input.length ≤ HTTP1_CHUNK_COMPACT_THRESHOLD_BYTES + 2 * (limits.maxChunkLineBytes + 2) +
      2 * (max (limits.maxChunkSize : ℕ) limits.maxChunkLineBytes + 2) := by
  obtain ⟨base, hbase, hleft⟩ := h.base
  have hroom : lineRoom limits d.state ≤ limits.maxChunkLineBytes + 2 := by
    cases d.state <;> simp [lineRoom]
  unfold Waiting unread at hwait
  omega

/-! ### A turn of the loop -/

variable {S : Type}

/-- After a turn: either less is unread, or the decoder waits, or it is done. -/
def TurnKept (limits : Http1ChunkLimits) (d : Http1ChunkedDecoder) :
    Turn Http1ChunkedDecoder S (Option Http1ChunkedDecode) → Prop
  | .again d' _ => d'.Kept limits ∧ d'.unread < d.unread
  | .ret none d' _ => d'.Kept limits ∧ d'.Waiting limits
  | .ret (some _) _ _ => True

variable {output output' : S} {turn : Turn Http1ChunkedDecoder S (Option Http1ChunkedDecode)}

theorem findCrlf_eq_some {input : Bytes} {off eol : ℕ} (h : findCrlf input off = some eol) :
    off ≤ eol ∧ eol + 2 ≤ input.length := by
  obtain ⟨i, hi, rfl⟩ := Option.map_eq_some_iff.1 h
  have hlen := findSub_add_length_le hi
  have : crlf.length = 2 := rfl
  rw [List.length_drop] at hlen
  omega

theorem processLine_kept (h : d.Kept limits) (hs : d.state = .size) {eol : ℕ}
    (hcrlf : findCrlf d.input d.lineScanOffset = some eol)
    (hturn : d.processLine output eol = .ok turn) : TurnKept limits d turn := by
  obtain ⟨hstart, hstop⟩ := findCrlf_eq_some hcrlf
  obtain ⟨base, hbase, hleft⟩ := h.base
  rw [hs, lineRoom] at hbase
  unfold processLine at hturn
  dsimp only at hturn
  split_ifs at hturn with hline
  obtain ⟨count, -, hturn⟩ := bind_eq_ok.1 hturn
  split_ifs at hturn with hcount
  obtain ⟨⟨size, ext⟩, hsize, hturn⟩ := bind_eq_ok.1 hturn
  obtain ⟨extensions, -, hturn⟩ := bind_eq_ok.1 hturn
  by_cases hext : extensions > d.limits.maxChunkExtensionBytes
  · rw [if_pos hext] at hturn
    cases hturn
  rw [if_neg hext] at hturn
  obtain ⟨off, hoff, hturn⟩ := bind_eq_ok.1 hturn
  obtain ⟨hfits, rfl⟩ := okOr_checkedAdd.1 hoff
  cases hturn
  have hscan := h.scan_ge
  have hlen : (slice d.input d.inputOffset eol).length = eol - d.inputOffset := by
    unfold slice
    rw [List.length_drop, List.length_take]
    omega
  rw [h.limits_eq] at hline
  rw [h.limits_eq] at hsize
  refine ⟨⟨h.limits_eq, hstop, hfits, le_refl _, ?_, ⟨base, ?_, hleft⟩, h.decoded_le,
    h.received_le⟩, ?_⟩
  · intro n hn
    split_ifs at hn
    cases hn
    exact parseChunkSizeLine_le hsize
  · have hroom : lineRoom limits (if size = 0 then .finish else .data size) =
        limits.maxChunkLineBytes + 2 := by
      split_ifs <;> rfl
    dsimp only
    omega
  · unfold unread
    dsimp only
    omega

theorem length_le_of_pendingLineLen {pending : Bytes} :
    pending.length ≤ pendingLineLen pending + 1 := by
  unfold pendingLineLen
  split_ifs <;> omega

theorem processSize_kept (h : d.Kept limits) (hs : d.state = .size)
    (hturn : d.processSize output = .ok turn) : TurnKept limits d turn := by
  unfold processSize at hturn
  cases hcrlf : findCrlf d.input d.lineScanOffset with
  | some eol =>
    rw [hcrlf] at hturn
    exact processLine_kept h hs hcrlf hturn
  | none =>
    rw [hcrlf] at hturn
    split_ifs at hturn with hshort hlong
    cases hturn
    refine ⟨⟨h.limits_eq, h.offset_le, h.offset_fits, le_max_right _ _, h.size_le, h.base,
      h.decoded_le, h.received_le⟩, ?_⟩
    have hlen := @length_le_of_pendingLineLen (d.input.drop d.inputOffset)
    rw [List.length_drop] at hlen
    rw [h.limits_eq] at hlong
    unfold Waiting unread
    dsimp only
    omega

/-- Compaction keeps the invariant, and what is unread. -/
theorem compactConsumed_kept (hcompact : d.compactConsumed = .ok d')
    (hoff : d.inputOffset ≤ d.input.length) (hfits : d.inputOffset ≤ usizeMax)
    (hscan : d.inputOffset ≤ d.lineScanOffset) (hs : d.state = .size) (hlimit : d.limits = limits)
    (hdec : d.decodedLen ≤ limits.maxBodyBytes)
    (hrecv : d.receivedLen ≤ limits.maxEncodedBytes) : d'.Kept limits ∧ d'.unread = d.unread := by
  have hsize : ∀ size, d.state = .data size → size ≤ limits.maxChunkSize := by
    intro size h
    rw [hs] at h
    cases h
  unfold compactConsumed at hcompact
  split_ifs at hcompact with hzero hear
  · cases hcompact
    exact ⟨⟨hlimit, hoff, hfits, hscan, hsize, ⟨0, by omega, .inl (Nat.zero_le _)⟩, hdec,
      hrecv⟩, rfl⟩
  · cases hcompact
    refine ⟨⟨hlimit, hoff, hfits, hscan, hsize,
      ⟨d.inputOffset, Nat.le_add_right _ _, ?_⟩, hdec, hrecv⟩, rfl⟩
    omega
  · obtain ⟨compact, -, hcompact⟩ := bind_eq_ok.1 hcompact
    cases hcompact
    refine ⟨⟨hlimit, Nat.zero_le _, Nat.zero_le _, Nat.zero_le _, hsize,
      ⟨0, Nat.zero_le _, .inl (Nat.zero_le _)⟩, hdec, hrecv⟩, ?_⟩
    unfold unread
    rw [List.length_drop, Nat.sub_zero]

theorem processEnd_kept (h : d.Kept limits)
    (hturn : d.processEnd output = .ok turn) : TurnKept limits d turn := by
  unfold processEnd at hturn
  dsimp only at hturn
  split_ifs at hturn with hshort hcrlf
  · cases hturn
    refine ⟨h, ?_⟩
    have := h.offset_fits
    unfold saturatingAdd at hshort
    unfold Waiting unread
    omega
  · obtain ⟨consumed, -, hturn⟩ := bind_eq_ok.1 hturn
    cases hturn
    trivial

variable [Http1ChunkSink S]

theorem processData_kept (h : d.Kept limits) {size : ℕ} (hs : d.state = .data size)
    (hturn : d.processData output size = .ok turn) : TurnKept limits d turn := by
  have hsize := h.size_le size hs
  obtain ⟨dataEnd, hdata, hturn⟩ := bind_eq_ok.1 hturn
  obtain ⟨chunkEnd, hchunk, hturn⟩ := bind_eq_ok.1 hturn
  obtain ⟨-, rfl⟩ := okOr_checkedAdd.1 hdata
  obtain ⟨hfits, rfl⟩ := okOr_checkedAdd.1 hchunk
  split_ifs at hturn with hshort hcrlf
  · cases hturn
    refine ⟨h, ?_⟩
    unfold Waiting unread
    omega
  · obtain ⟨outputEnd, -, hturn⟩ := bind_eq_ok.1 hturn
    split_ifs at hturn with hbody
    obtain ⟨output, -, hturn⟩ := bind_eq_ok.1 hturn
    obtain ⟨d', hcompact, hturn⟩ := bind_eq_ok.1 hturn
    cases hturn
    rw [h.limits_eq] at hbody
    obtain ⟨hkept, hunread⟩ := @compactConsumed_kept limits _ d' hcompact (not_lt.1 hshort) hfits
      (le_refl _) rfl h.limits_eq (not_lt.1 hbody) h.received_le
    refine ⟨hkept, ?_⟩
    rw [hunread]
    unfold unread
    dsimp only
    omega

theorem processStep_kept (h : d.Kept limits) (hturn : d.processStep output = .ok turn) :
    TurnKept limits d turn := by
  unfold processStep at hturn
  split at hturn
  case h_1 hs => exact processSize_kept h hs hturn
  case h_2 size hs => exact processData_kept h hs hturn
  case h_3 hs => exact processEnd_kept h hturn

/-- The fuel of the loop is never used up: every turn that goes round again reads something. -/
theorem processLoop_kept {fuel : ℕ} (h : d.Kept limits) (hfuel : d.unread < fuel)
    (hloop : processLoop fuel d output = .ok (none, d', output')) :
    d'.Kept limits ∧ d'.Waiting limits := by
  induction fuel generalizing d output with
  | zero => omega
  | succ fuel ih =>
    obtain ⟨turn, hturn, hloop⟩ := bind_eq_ok.1 hloop
    have hkept := processStep_kept h hturn
    cases turn with
    | ret r e out =>
      cases hloop
      exact hkept
    | again e out =>
      have hless := hkept.2
      exact ih hkept.1 (by omega) hloop

theorem process_kept (h : d.Kept limits) (hprocess : d.process output = .ok (none, d', output')) :
    d'.Kept limits ∧ d'.Waiting limits :=
  processLoop_kept h (Nat.lt_succ_of_le (Nat.sub_le _ _)) hprocess

theorem pushLoop_kept {fuel : ℕ} {chunk : Bytes} (h : d.Kept limits) (hwait : d.Waiting limits)
    (hloop : pushLoop fuel d chunk output = .ok (none, d', output')) :
    d'.Kept limits ∧ d'.Waiting limits := by
  induction fuel generalizing d chunk output with
  | zero =>
    cases hloop
    exact ⟨h, hwait⟩
  | succ fuel ih =>
    rw [pushLoop] at hloop
    dsimp only at hloop
    split_ifs at hloop with hdone hfull
    · cases hloop
      exact ⟨h, hwait⟩
    · obtain ⟨received, hrecv, hloop⟩ := bind_eq_ok.1 hloop
      obtain ⟨-, rfl⟩ := okOr_checkedAdd.1 hrecv
      obtain ⟨⟨r, e, out⟩, hprocess, hloop⟩ := bind_eq_ok.1 hloop
      cases r with
      | some complete => cases hloop
      | none =>
        have hfits : d.receivedLen + min (min chunk.length HTTP1_CHUNK_INPUT_FRAGMENT_BYTES)
            (d.limits.maxEncodedBytes - d.receivedLen) ≤ limits.maxEncodedBytes := by
          have := h.received_le
          rw [h.limits_eq]
          omega
        obtain ⟨hkept, hnext⟩ := process_kept (h.extend _ hfits) hprocess
        exact ih hkept hnext hloop

theorem pushTo_kept {chunk : Bytes} (h : d.Kept limits) (hwait : d.Waiting limits)
    (hpush : d.pushTo chunk output = .ok (none, d', output')) :
    d'.Kept limits ∧ d'.Waiting limits := by
  unfold pushTo at hpush
  split_ifs at hpush
  unfold pushWithSink at hpush
  split at hpush
  · cases hpush
  · split_ifs at hpush
    · exact process_kept h hpush
    · exact pushLoop_kept h hwait hpush

/-- The decoders that pushes reach when each of them waits for more.  The sink may be another one
each time. -/
inductive Pushed (limits : Http1ChunkLimits) : Http1ChunkedDecoder → Prop
  | new : Pushed limits (new limits)
  | push {S : Type} [Http1ChunkSink S] {d d' : Http1ChunkedDecoder} {chunk : Bytes}
      {output output' : S} : Pushed limits d → d.pushTo chunk output = .ok (none, d', output') →
      Pushed limits d'

theorem Pushed.kept (h : Pushed limits d) : d.Kept limits ∧ d.Waiting limits := by
  induction h with
  | new => exact ⟨kept_new limits, waiting_new limits⟩
  | push _ hpush ih => exact pushTo_kept ih.1 ih.2 hpush

/-- **A decoder that waits for more keeps a bounded number of bytes, however many were pushed**,
has decoded no more than the limit on the body and received no more than the limit on the encoded
body. -/
theorem chunked_decoder_bounded (limits : Http1ChunkLimits) (d : Http1ChunkedDecoder)
    (h : Pushed limits d) :
    d.input.length ≤ 4096 + 2 * (limits.maxChunkLineBytes + 2) +
        2 * (max (limits.maxChunkSize : ℕ) limits.maxChunkLineBytes + 2) ∧
      d.decodedLen ≤ limits.maxBodyBytes ∧ d.receivedLen ≤ limits.maxEncodedBytes :=
  ⟨h.kept.1.length_le h.kept.2, h.kept.1.decoded_le, h.kept.1.received_le⟩

/-- A size line and a part of its chunk. -/
theorem chunked_decoder_bounded_part :
    ∃ d output, (new .default).pushTo (ascii "5\r\nhe") ([] : Bytes) = .ok (none, d, output) ∧
      d.input.length ≤ 4096 + 2 * (8192 + 2) + 2 * (max 1048576 8192 + 2) := by
  obtain ⟨r, hr⟩ : ∃ r, (new .default).pushTo (ascii "5\r\nhe") ([] : Bytes) =
      .ok (none, r) := by
    have hnone : ((new .default).pushTo (ascii "5\r\nhe") ([] : Bytes)).toOption.map (·.1) =
        some none := by decide +kernel
    cases h : (new .default).pushTo (ascii "5\r\nhe") ([] : Bytes) with
    | error e =>
      rw [h] at hnone
      cases hnone
    | ok r =>
      obtain ⟨r, rest⟩ := r
      rw [h] at hnone
      cases hnone
      exact ⟨rest, rfl⟩
  exact ⟨r.1, r.2, hr, (chunked_decoder_bounded .default r.1 (.push .new hr)).1⟩

end Http1ChunkedDecoder

end Fluxheim
