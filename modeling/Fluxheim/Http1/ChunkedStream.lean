import Fluxheim.Http1.ChunkedMachine

/-!
# The decoder follows the machine

One turn of `process` follows one step of the machine, `process` a run, and `pushWithSink` the
extension of the stream by a fragment.  The one thing that the buffer adds is arithmetic overflow:
`inputOffset + size + 2` may exceed `usize::MAX` while the machine waits for the data of a chunk
(`Overflow`).  The offset depends on what was compacted, and so on the fragments.
-/

namespace Fluxheim

open Ascii Fallible Search Incremental List

/-- A sink that holds `contents`, as long as they fit its capacity. -/
structure SinkSpec (S : Type) [Http1ChunkSink S] where
  capacity : ℕ
  valid : S → Prop
  contents : S → Bytes
  len_eq : ∀ s, valid s → Http1ChunkSink.len s = (contents s).length
  append_ok : ∀ s c, valid s → (contents s).length + c.length ≤ capacity →
    ∃ s', Http1ChunkSink.append s c = .ok s' ∧ valid s' ∧ contents s' = contents s ++ c

/-- The sink `s` holds the bytes `b`. -/
def SinkSpec.Holds {S : Type} [Http1ChunkSink S] (K : SinkSpec S) (s : S) (b : Bytes) : Prop :=
  K.valid s ∧ K.contents s = b

/-- A `Vec<u8>` holds anything. -/
def vecSink (capacity : ℕ) : SinkSpec Bytes where
  capacity := capacity
  valid _ := True
  contents s := s
  len_eq _ _ := rfl
  append_ok s c _ _ := ⟨s ++ c, rfl, trivial, rfl⟩

/-- A slice of `n` bytes holds what fits. -/
def sliceSink (n : ℕ) : SinkSpec Http1SliceChunkSink where
  capacity := min n usizeMax
  valid s := s.output.length = n ∧ s.len ≤ n
  contents s := s.output.take s.len
  len_eq s h := by
    rw [length_take, h.1]
    exact (min_eq_left h.2).symm
  append_ok s c h hfit := by
    obtain ⟨hn, hlen⟩ := h
    rw [length_take, hn, min_eq_left hlen] at hfit
    refine ⟨⟨s.output.take s.len ++ c ++ s.output.drop (s.len + c.length), s.len + c.length⟩,
      ?_, ⟨?_, by simp only; omega⟩, ?_⟩
    · show Http1SliceChunkSink.append s c = _
      simp only [Http1SliceChunkSink.append, checkedAdd_of_le (show s.len + c.length ≤ usizeMax by
        omega), if_pos (show s.len + c.length ≤ s.output.length by omega)]
    · simp only [length_append, length_take, length_drop]
      omega
    · exact take_left' (by simp only [length_append, length_take]; omega)

variable (limits : Http1ChunkLimits)

/-- The most that is unread while a fragment is processed: less than a line or a chunk was left
over, and a fragment came. -/
def unreadBound : ℕ :=
  max (limits.maxChunkSize : ℕ) limits.maxChunkLineBytes + 1 + HTTP1_CHUNK_INPUT_FRAGMENT_BYTES

/-- The most that compaction leaves read in the buffer. -/
def compactBound : ℕ := max HTTP1_CHUNK_COMPACT_THRESHOLD_BYTES (unreadBound limits)

/-- The most that is read in the buffer. -/
def offsetBound : ℕ := compactBound limits + limits.maxChunkLineBytes + 2

namespace Http1ChunkedDecoder

/-- The decoder is at a position of the stream, `n` bytes from its beginning, and holds the unread
bytes `x`. -/
structure At (d : Http1ChunkedDecoder) (p : ChunkPosition) (n : ℕ) (x : Bytes) : Prop where
  limits_eq : d.limits = limits
  running : d.complete = none
  offset_le : d.inputOffset ≤ d.input.length
  unread : d.input.drop d.inputOffset = x
  consumed : d.compactedLen + d.inputOffset = n
  received : d.receivedLen = n + x.length
  received_le : d.receivedLen ≤ limits.maxEncodedBytes
  state_eq : d.state = p.state
  count_eq : d.chunkCount = p.chunkCount
  extension_eq : d.extensionBytes = p.extensionBytes
  decoded_eq : d.decodedLen = p.decoded.length
  -- the search for a line end may begin at the scan offset, however the input goes on
  scan : ∀ t, findCrlf (d.input ++ t) d.lineScanOffset
    = (findSub crlf (x ++ t)).map (· + d.inputOffset)
  valid : p.Valid limits n
  unread_le : x.length ≤ unreadBound limits
  offset_bound : d.inputOffset ≤ offsetBound limits
  offset_size : p.state = .size → d.inputOffset ≤ compactBound limits

/-- The machine waits for the data of a chunk, or for the last line end, that ends beyond
`usize::MAX`. -/
def Overflow (p : ChunkPosition) (n : ℕ) : Prop :=
  ∃ size, (p.state = .data size ∨ p.state = .finish ∧ size = 0) ∧
    usizeMax < min n (offsetBound limits) + size + 2

theorem findCrlf_self {input : Bytes} {off : ℕ} (h : off ≤ input.length) (t : Bytes) :
    findCrlf (input ++ t) off = (findSub crlf (input.drop off ++ t)).map (· + off) := by
  unfold findCrlf
  rw [drop_append_of_le_length h]

theorem slice_add (input : Bytes) (off i j : ℕ) :
    slice input (off + i) (off + j) = slice (input.drop off) i j := by
  unfold slice
  simp only [drop_take, drop_drop]
  congr 1
  omega

theorem At.length_input {d : Http1ChunkedDecoder} {p : ChunkPosition} {n : ℕ} {x : Bytes}
    (h : d.At limits p n x) : d.input.length = d.inputOffset + x.length := by
  have := h.offset_le
  rw [← h.unread, length_drop]
  omega

theorem new_at : (new limits).At limits .start 0 [] where
  limits_eq := rfl
  running := rfl
  offset_le := le_rfl
  unread := rfl
  consumed := rfl
  received := rfl
  received_le := Nat.zero_le _
  state_eq := rfl
  count_eq := rfl
  extension_eq := rfl
  decoded_eq := rfl
  scan t := findCrlf_self (le_refl ([] : Bytes).length) t
  valid := ChunkPosition.start_valid limits
  unread_le := Nat.zero_le _
  offset_bound := Nat.zero_le _
  offset_size _ := Nat.zero_le _

variable {limits}
variable {d : Http1ChunkedDecoder} {p p' : ChunkPosition} {n k : ℕ} {x : Bytes}
variable {S : Type} {output : S}

/-! ### One turn of the loop -/

/-- A line end within the buffer, as the machine finds it. -/
theorem At.findCrlf_eq (h : d.At limits p n x) :
    findCrlf d.input d.lineScanOffset = (findSub crlf x).map (· + d.inputOffset) := by
  simpa using h.scan []

/-- A checked addition whose overflow is reported as its limit is. -/
theorem checkedAdd_limit {β : Type} (a b : ℕ) (limit : Usize) (e : Http1ParseError)
    (f : ℕ → Except Http1ParseError β) :
    (okOr (checkedAdd a b) e >>= fun c => if c > limit then .error e else f c)
      = if a + b > limit then .error e else f (a + b) := by
  by_cases h : a + b ≤ usizeMax
  · rw [checkedAdd_of_le h]
    rfl
  · have := limit.le_usizeMax
    rw [checkedAdd_of_gt (by omega), if_pos (by omega)]
    rfl

/-- Reading a size line, as in the machine. -/
theorem At.processLine_eq (h : d.At limits p n x) {i : ℕ} (hi : i + 2 ≤ x.length) :
    d.processLine output (i + d.inputOffset) =
      match readSizeLine limits p (x.take i) with
      | .error e => .error e
      | .ok p' => .ok (.again { d with
          chunkCount := p'.chunkCount
          extensionBytes := p'.extensionBytes
          inputOffset := d.inputOffset + (i + 2)
          lineScanOffset := d.inputOffset + (i + 2)
          state := p'.state } output) := by
  have hline : slice d.input d.inputOffset (i + d.inputOffset) = x.take i := by
    have := slice_add d.input d.inputOffset 0 i
    rw [h.unread] at this
    rwa [add_comm i]
  have hmax := limits.maxEncodedBytes.le_usizeMax
  have hrecv := h.received
  have hreceived_le := h.received_le
  have hcons := h.consumed
  have hoff : checkedAdd (i + d.inputOffset) 2 = some (d.inputOffset + (i + 2)) := by
    rw [checkedAdd_of_le (by omega)]
    congr 1
    omega
  unfold processLine readSizeLine
  simp only [hline, h.limits_eq, checkedAdd_limit, h.count_eq, h.extension_eq]
  split_ifs with h1 h2
  · rfl
  · rfl
  · cases hp : parseChunkSizeLine (x.take i) limits.maxChunkSize with
    | error e => rfl
    | ok r =>
      obtain ⟨size, ext⟩ := r
      simp only [ok_bind]
      split_ifs with h3
      · rfl
      all_goals simp [hoff]

/-- Compaction changes neither the unread bytes nor the number of bytes read, and leaves no more
read in the buffer than is unread, or 4 KiB. -/
theorem compactConsumed_spec (hle : d.inputOffset ≤ d.input.length)
    (hscan : d.lineScanOffset = d.inputOffset) (hmax : d.compactedLen + d.inputOffset ≤ usizeMax) :
    ∃ input off compact, d.compactConsumed = .ok { d with
        input := input
        inputOffset := off
        lineScanOffset := off
        compactedLen := compact } ∧
      off ≤ input.length ∧ input.drop off = d.input.drop d.inputOffset ∧
      compact + off = d.compactedLen + d.inputOffset ∧
      off ≤ max HTTP1_CHUNK_COMPACT_THRESHOLD_BYTES (d.input.length - d.inputOffset) := by
  have hkeep : d = { d with
      input := d.input
      inputOffset := d.inputOffset
      lineScanOffset := d.inputOffset
      compactedLen := d.compactedLen } := by
    cases d
    simp only at hscan
    subst hscan
    rfl
  unfold compactConsumed
  split_ifs with h0 h1
  · exact ⟨_, _, _, congrArg Except.ok hkeep, hle, rfl, rfl, by omega⟩
  · exact ⟨_, _, _, congrArg Except.ok hkeep, hle, rfl, rfl, by omega⟩
  · refine ⟨d.input.drop d.inputOffset, 0, d.compactedLen + d.inputOffset, ?_, Nat.zero_le _,
      drop_zero, rfl, Nat.zero_le _⟩
    rw [checkedAdd_of_le hmax, hscan, Nat.sub_self]
    rfl

variable [Http1ChunkSink S]

/-- A turn of the loop follows a step of the machine at the position `p`, after `n` bytes and with
the bytes `x` unread. -/
def TurnSpec (limits : Http1ChunkLimits) (K : SinkSpec S) (p : ChunkPosition) (n : ℕ) (x : Bytes)
    (r : Except Http1ParseError (Turn Http1ChunkedDecoder S (Option Http1ChunkedDecode))) :
    Verdict ChunkPosition Http1ParseError Bytes → Prop
  | .wait => (∃ d output, r = .ok (.ret none d output) ∧ d.At limits p n x ∧
      K.Holds output p.decoded) ∨ (Overflow limits p n ∧ ∃ e, r = .error e)
  | .fail e => r = .error e
  | .done b k => ∃ d output, r = .ok (.ret (some ⟨b.length, n + k⟩) d output) ∧ K.Holds output b
  | .next p' k => ∃ d output, r = .ok (.again d output) ∧ d.At limits p' (n + k) (x.drop k) ∧
      K.Holds output p'.decoded

variable {K : SinkSpec S}

theorem At.processSize_spec (h : d.At limits p n x) (hs : p.state = .size)
    (hout : K.Holds output p.decoded) :
    TurnSpec limits K p n x (d.processSize output) (chunkStep limits p x) := by
  have hlen := h.length_input
  cases hx : findSub crlf x with
  | none =>
    have hproc : d.processSize output =
        if pendingLineLen x > limits.maxChunkLineBytes then .error .chunkMetadataTooLarge
        else .ok (.ret none
          { d with lineScanOffset := max (d.input.length - 1) d.inputOffset } output) := by
      unfold processSize
      simp only [h.findCrlf_eq, hx, Option.map_none, h.unread, h.limits_eq]
      exact if_neg (by omega)
    rw [chunkStep_of_line_open limits hs hx, hproc]
    split_ifs with hlong
    · rfl
    · refine Or.inl ⟨_, _, rfl, { h with scan := fun t => ?_ }, hout⟩
      -- the resumed search starts at the last unread byte, which may be half of a line end
      rcases eq_zero_or_pos x.length with hzero | hpos
      · have hx : max (d.input.length - 1) d.inputOffset = d.inputOffset := by omega
        simp only [hx]
        rw [findCrlf_self h.offset_le, h.unread]
      · have hk : max (d.input.length - 1) d.inputOffset = d.inputOffset + (x.length - 1) := by
          omega
        simp only [hk]
        rw [findSub_append_of_none hx (by simp [crlf]) t
          (k := x.length - 1) (by rw [crlf_length]; omega), Option.map_map]
        unfold findCrlf
        rw [← drop_drop, drop_append_of_le_length h.offset_le, h.unread]
        congr 1
        funext i
        simp only [Function.comp_apply]
        omega
  | some i =>
    have hi : i + 2 ≤ x.length := findSub_add_length_le hx
    have hproc : d.processSize output = d.processLine output (i + d.inputOffset) := by
      unfold processSize
      simp only [h.findCrlf_eq, hx, Option.map_some]
    have hstep := chunkStep_of_line limits hs hx
    rw [hproc, h.processLine_eq hi, hstep]
    cases hr : readSizeLine limits p (x.take i) with
    | error e => rfl
    | ok p' =>
      have hnext : chunkStep limits p x = .next p' (i + 2) := by rw [hstep, hr]
      have hval := h.valid.next limits hnext
      obtain ⟨hline, -, size, ext, -, -, rfl⟩ := (readSizeLine_eq_ok limits).1 hr
      rw [length_take] at hline
      have hdrop : d.input.drop (d.inputOffset + (i + 2)) = x.drop (i + 2) := by
        rw [← drop_drop, h.unread]
      have hle : d.inputOffset + (i + 2) ≤ d.input.length := by omega
      have hoff := h.offset_size hs
      have hcons := h.consumed
      have hunread := h.unread_le
      have hrecv := h.received
      refine ⟨_, _, rfl, ?_, hout⟩
      exact { h with
        offset_le := hle
        unread := hdrop
        consumed := by simp only; omega
        received := by simp only [length_drop]; omega
        state_eq := rfl
        count_eq := rfl
        extension_eq := rfl
        scan := fun t => by rw [← hdrop]; exact findCrlf_self hle t
        valid := hval
        unread_le := by rw [length_drop]; omega
        offset_bound := by simp only [offsetBound]; omega
        offset_size := fun hstate => by
          split_ifs at hstate }

theorem At.processData_spec (h : d.At limits p n x) {size : ℕ} (hs : p.state = .data size)
    (hout : K.Holds output p.decoded)
    (hcap : min (limits.maxBodyBytes : ℕ) (n + x.length) ≤ K.capacity) :
    TurnSpec limits K p n x (d.processData output size) (chunkStep limits p x) := by
  have hlen := h.length_input
  have hmax := limits.maxEncodedBytes.le_usizeMax
  have hrecv := h.received
  have hreceived_le := h.received_le
  have hcons := h.consumed
  have hoff := h.offset_bound
  unfold processData chunkStep
  simp only [hs]
  by_cases hover : usizeMax < d.inputOffset + size + 2
  · -- the sum overflows: the chunk cannot be complete
    rw [if_pos (by omega)]
    refine Or.inr ⟨⟨size, Or.inl hs, by omega⟩, ?_⟩
    by_cases hover' : usizeMax < d.inputOffset + size
    · exact ⟨.chunkTooLarge, by rw [checkedAdd_of_gt hover']; rfl⟩
    · refine ⟨.invalidChunk, ?_⟩
      rw [checkedAdd_of_le (by omega)]
      simp only [okOr_some, ok_bind]
      rw [checkedAdd_of_gt hover]
      rfl
  · rw [checkedAdd_of_le (by omega)]
    simp only [okOr_some, ok_bind]
    rw [checkedAdd_of_le (by omega)]
    simp only [okOr_some, ok_bind]
    by_cases hshort : x.length < size + 2
    · rw [if_pos hshort, if_pos (by omega)]
      exact Or.inl ⟨_, _, rfl, h, hout⟩
    · rw [if_neg hshort, if_neg (by omega), add_assoc, slice_add, h.unread]
      by_cases hcrlf : slice x size (size + 2) ≠ crlf
      · rw [if_pos hcrlf, if_pos hcrlf]
        rfl
      · rw [if_neg hcrlf, if_neg hcrlf, checkedAdd_limit, h.decoded_eq]
        have hlimit : (d.limits.maxBodyBytes : ℕ) = limits.maxBodyBytes := by rw [h.limits_eq]
        by_cases hbody : p.decoded.length + size > limits.maxBodyBytes
        · rw [if_pos hbody, if_pos (by omega)]
          rfl
        · rw [if_neg hbody, if_neg (by omega)]
          have hdata : slice d.input d.inputOffset (d.inputOffset + size) = x.take size := by
            have := slice_add d.input d.inputOffset 0 size
            rwa [h.unread] at this
          have htake : (x.take size).length = size := by
            rw [length_take]
            omega
          have hdec := h.valid.decoded_le
          obtain ⟨out', happ, hval', hcont⟩ :=
            K.append_ok output (x.take size) hout.1 (by rw [hout.2]; omega)
          have hnext : chunkStep limits p x = .next { p with
              state := .size
              decoded := p.decoded ++ x.take size } (size + 2) :=
            (chunkStep_eq_next limits).2 (Or.inr
              ⟨size, hs, rfl, by omega, by simpa using hcrlf, by omega, rfl⟩)
          obtain ⟨input, off, compact, hcompact, hle, hdrop, hsum, hbound⟩ :=
            compactConsumed_spec (d := { d with
              decodedLen := p.decoded.length + size
              inputOffset := d.inputOffset + (size + 2)
              lineScanOffset := d.inputOffset + (size + 2)
              state := .size }) (by simp only; omega) rfl (by simp only; omega)
          simp only at hdrop hsum hbound
          have hunread : input.drop off = x.drop (size + 2) := by
            rw [hdrop, ← drop_drop, h.unread]
          have hunread_le := h.unread_le
          rw [hdata, happ]
          rw [hcompact]
          have hoff' : off ≤ compactBound limits :=
            hbound.trans (max_le_max le_rfl (by omega))
          refine ⟨_, _, rfl, ?_, hval', by rw [hcont, hout.2]⟩
          exact { h with
            offset_le := hle
            unread := hunread
            consumed := by simp only; omega
            received := by simp only [length_drop]; omega
            state_eq := rfl
            decoded_eq := by simp only [length_append, htake]
            scan := fun t => by rw [← hunread]; exact findCrlf_self hle t
            valid := h.valid.next limits hnext
            unread_le := by rw [length_drop]; omega
            offset_bound := by simp only [offsetBound]; omega
            offset_size := fun _ => hoff' }

theorem At.processEnd_spec (h : d.At limits p n x) (hs : p.state = .finish)
    (hout : K.Holds output p.decoded) :
    TurnSpec limits K p n x (d.processEnd output) (chunkStep limits p x) := by
  have hlen := h.length_input
  have hmax := limits.maxEncodedBytes.le_usizeMax
  have hrecv := h.received
  have hreceived_le := h.received_le
  have hcons := h.consumed
  unfold processEnd chunkStep saturatingAdd
  simp only [hs]
  by_cases hshort : x.length < 2
  · rw [if_pos hshort]
    by_cases hover : usizeMax < d.inputOffset + 2
    · -- the sum saturates: what is read in place of the line end is shorter
      have hoff := h.offset_bound
      have hstop : min (d.inputOffset + 2) usizeMax ≤ d.inputOffset + 1 :=
        (min_le_right _ _).trans (by omega)
      generalize min (d.inputOffset + 2) usizeMax = stop at hstop ⊢
      have hslice : slice d.input d.inputOffset stop ≠ crlf := by
        intro hc
        have := congrArg length hc
        simp only [slice, length_drop, length_take, crlf_length] at this
        omega
      split_ifs
      · exact Or.inl ⟨_, _, rfl, h, hout⟩
      · exact Or.inr ⟨⟨0, Or.inr ⟨hs, rfl⟩, by omega⟩, .invalidChunk, rfl⟩
    · rw [if_pos (by omega)]
      exact Or.inl ⟨_, _, rfl, h, hout⟩
  · have hstop : min (d.inputOffset + 2) usizeMax = d.inputOffset + 2 := by omega
    have hslice : slice d.input d.inputOffset (d.inputOffset + 2) = x.take 2 := by
      have := slice_add d.input d.inputOffset 0 2
      rwa [h.unread] at this
    rw [if_neg hshort, hstop, if_neg (by omega), hslice]
    by_cases hcrlf : x.take 2 ≠ crlf
    · rw [if_pos hcrlf, if_pos hcrlf]
      rfl
    · rw [if_neg hcrlf, if_neg hcrlf, checkedAdd_of_le (by omega), Option.bind_some,
        checkedAdd_of_le (by omega), hcons, h.decoded_eq]
      exact ⟨_, _, rfl, hout⟩

/-- **One turn of `process` follows one step of the machine.** -/
theorem At.processStep_spec (h : d.At limits p n x) (hout : K.Holds output p.decoded)
    (hcap : min (limits.maxBodyBytes : ℕ) (n + x.length) ≤ K.capacity) :
    TurnSpec limits K p n x (d.processStep output) (chunkStep limits p x) := by
  unfold processStep
  rw [h.state_eq]
  cases hs : p.state with
  | size => exact h.processSize_spec hs hout
  | data size => exact h.processData_spec hs hout hcap
  | finish => exact h.processEnd_spec hs hout

/-- A result follows an outcome of the machine, begun after `n` bytes with the bytes `x` unread. -/
def Follows (limits : Http1ChunkLimits) (K : SinkSpec S) (n : ℕ) (x : Bytes)
    (r : Except Http1ParseError (Option Http1ChunkedDecode × Http1ChunkedDecoder × S)) :
    Outcome ChunkPosition Http1ParseError Bytes → Prop
  | .pending p m => ∃ d output, r = .ok (none, d, output) ∧ d.At limits p (n + m) (x.drop m) ∧
      K.Holds output p.decoded
  | .fail e => r = .error e
  | .done b m => ∃ d output, r = .ok (some ⟨b.length, n + m⟩, d, output) ∧ K.Holds output b

variable {r : Except Http1ParseError (Option Http1ChunkedDecode × Http1ChunkedDecoder × S)}

variable {o : Outcome ChunkPosition Http1ParseError Bytes}

theorem follows_shift :
    Follows limits K n x r (o.shift k) ↔ Follows limits K (n + k) (x.drop k) r o := by
  cases o <;> simp [Follows, Outcome.shift, add_assoc]

/-- The run waits where the decoder overflows, and the decoder fails. -/
def Overflows (limits : Http1ChunkLimits) (n : ℕ)
    (r : Except Http1ParseError (Option Http1ChunkedDecode × Http1ChunkedDecoder × S))
    (o : Outcome ChunkPosition Http1ParseError Bytes) : Prop :=
  ∃ p m, o = .pending p m ∧ Overflow limits p (n + m) ∧ ∃ e, r = .error e

/-- **`process` follows a run of the machine.** -/
theorem At.processLoop_spec (fuel : ℕ) (h : d.At limits p n x) (hout : K.Holds output p.decoded)
    (hcap : min (limits.maxBodyBytes : ℕ) (n + x.length) ≤ K.capacity) (hfuel : x.length < fuel) :
    Follows limits K n x (processLoop fuel d output) ((chunkMachine limits).run p x) ∨
      Overflows limits n (processLoop fuel d output) ((chunkMachine limits).run p x) := by
  induction fuel generalizing d output p n x with
  | zero => omega
  | succ fuel ih =>
    have hturn := h.processStep_spec hout hcap
    rw [processLoop]
    cases hs : chunkStep limits p x with
    | wait =>
      rw [hs] at hturn
      rw [(chunkMachine limits).run_of_wait hs]
      rcases hturn with ⟨d', output', hr, hat, hout'⟩ | ⟨hover, e, hr⟩
      · rw [hr]
        exact Or.inl ⟨d', output', rfl, hat, hout'⟩
      · rw [hr]
        exact Or.inr ⟨p, 0, rfl, hover, e, rfl⟩
    | fail e =>
      rw [hs] at hturn
      rw [(chunkMachine limits).run_of_fail hs, show d.processStep output = _ from hturn]
      exact Or.inl rfl
    | done b k =>
      rw [hs] at hturn
      obtain ⟨d', output', hr, hout'⟩ := hturn
      rw [(chunkMachine limits).run_of_done hs, hr]
      exact Or.inl ⟨d', output', rfl, hout'⟩
    | next p' k =>
      have hk := (chunkMachine limits).next_pos p x p' k hs
      rw [hs] at hturn
      obtain ⟨d', output', hr, hat, hout'⟩ := hturn
      have hrest := ih hat hout' (by rw [length_drop]; omega) (by rw [length_drop]; omega)
      rw [(chunkMachine limits).run_of_next hs, hr]
      rcases hrest with hrest | ⟨q, m, hrun, hover, herr⟩
      · exact Or.inl (follows_shift.2 hrest)
      · refine Or.inr ⟨q, k + m, by rw [hrun]; rfl, ?_, herr⟩
        rwa [← add_assoc]

/-! ### Fragments -/

/-- The decoder after a fragment of at most 8 KiB was appended to its buffer. -/
theorem At.extend (h : d.At limits p n x) (hwait : chunkStep limits p x = .wait) {f : Bytes}
    (hf : f.length ≤ HTTP1_CHUNK_INPUT_FRAGMENT_BYTES)
    (hmax : d.receivedLen + f.length ≤ limits.maxEncodedBytes) :
    ({ d with input := d.input ++ f, receivedLen := d.receivedLen + f.length }).At
      limits p n (x ++ f) := by
  have hlen := length_le_of_wait limits h.valid hwait
  have hrecv := h.received
  exact { h with
    offset_le := by
      have := h.offset_le
      simp only [length_append]
      omega
    unread := by rw [drop_append_of_le_length h.offset_le, h.unread]
    received := by simp only [length_append]; omega
    received_le := hmax
    scan := fun t => by simpa only [append_assoc] using h.scan (f ++ t)
    unread_le := by rw [length_append]; unfold unreadBound; omega }

/-- The decoder has taken in the stream `s`, within the encoded limit, and waits for more. -/
structure Reached (limits : Http1ChunkLimits) (K : SinkSpec S) (d : Http1ChunkedDecoder)
    (output : S) (s : Bytes) (p : ChunkPosition) (n : ℕ) : Prop where
  run_eq : (chunkMachine limits).run .start s = .pending p n
  pos : d.At limits p n (s.drop n)
  holds : K.Holds output p.decoded

variable {s t : Bytes}

theorem Reached.received (h : Reached limits K d output s p n) : d.receivedLen = s.length := by
  have hn := (chunkMachine limits).run_pending_le h.run_eq
  rw [h.pos.received, length_drop]
  omega

theorem Reached.start (hout : K.Holds output []) :
    Reached limits K (new limits) output [] .start 0 :=
  ⟨(chunkMachine limits).run_of_wait rfl, new_at limits, hout⟩

theorem Reached.decodeSpec_eq (h : Reached limits K d output s p n) :
    decodeSpec limits s = .pending p n := by
  have hle : s.length ≤ limits.maxEncodedBytes := h.received ▸ h.pos.received_le
  unfold decodeSpec
  rw [take_of_length_le hle, h.run_eq]
  exact if_neg (by omega)

/-- Processing a fragment follows the machine on the extended stream. -/
theorem Reached.process_spec (h : Reached limits K d output s p n) {f : Bytes}
    (hf : f.length ≤ HTTP1_CHUNK_INPUT_FRAGMENT_BYTES)
    (hmax : s.length + f.length ≤ limits.maxEncodedBytes)
    (hcap : min (limits.maxBodyBytes : ℕ) (s ++ f).length ≤ K.capacity) :
    let r := process { d with input := d.input ++ f, receivedLen := s.length + f.length } output
    Follows limits K 0 (s ++ f) r ((chunkMachine limits).run .start (s ++ f)) ∨
      Overflows limits 0 r ((chunkMachine limits).run .start (s ++ f)) := by
  have hn := (chunkMachine limits).run_pending_le h.run_eq
  have hwait := (chunkMachine limits).step_of_run_pending h.run_eq
  have hat := h.pos.extend hwait hf (by rw [h.received]; exact hmax)
  rw [h.received, ← drop_append_of_le_length hn] at hat
  rw [(chunkMachine limits).run_append_pending h.run_eq, ← drop_append_of_le_length hn]
  have hspec := hat.processLoop_spec ((d.input ++ f).length + 1) h.holds
    (by rw [length_drop]; rw [length_append] at hcap ⊢; omega)
    (by have := hat.length_input; simp only at this; omega)
  rcases hspec with hspec | ⟨q, m, hrun, hover, herr⟩
  · exact Or.inl (follows_shift.2 (by rwa [zero_add]))
  · exact Or.inr ⟨q, n + m, by rw [hrun]; rfl, by rwa [zero_add], herr⟩

/-- A result follows the stream `s`: it is the outcome of the specification, or an overflow at
a position where the machine waits for more of the stream. -/
def StreamSpec (limits : Http1ChunkLimits) (K : SinkSpec S) (s : Bytes)
    (r : Except Http1ParseError (Option Http1ChunkedDecode × Http1ChunkedDecoder × S)) : Prop :=
  Follows limits K 0 s r (decodeSpec limits s) ∨
    ∃ u, u <+: s ∧ u.length ≤ limits.maxEncodedBytes ∧
      Overflows limits 0 r ((chunkMachine limits).run .start u)

/-- What a decoder that waits has reached. -/
theorem Reached.of_follows (hrun : (chunkMachine limits).run .start s = .pending p n)
    (h : Follows limits K 0 s r (.pending p n)) :
    ∃ d output, r = .ok (none, d, output) ∧ Reached limits K d output s p n := by
  obtain ⟨d, output, hr, hat, hout⟩ := h
  exact ⟨d, output, hr, hrun, by rwa [zero_add] at hat, hout⟩

theorem decodeSpec_of_le (hs : s.length ≤ limits.maxEncodedBytes) :
    decodeSpec limits s = (chunkMachine limits).run .start s := by
  unfold decodeSpec
  rw [take_of_length_le hs]
  cases (chunkMachine limits).run .start s with
  | pending p n => exact if_neg (by omega)
  | fail e => rfl
  | done b n => rfl

theorem run_of_decodeSpec_pending (h : decodeSpec limits s = .pending p n) :
    (chunkMachine limits).run .start s = .pending p n := by
  have hle : s.length ≤ limits.maxEncodedBytes := by
    by_contra hlong
    unfold decodeSpec at h
    split at h
    · rw [if_pos (by omega)] at h
      cases h
    · rename_i hne
      exact hne _ _ h
  rw [← decodeSpec_of_le hle, h]

theorem Reached.streamSpec (h : Reached limits K d output s p n) :
    StreamSpec limits K s (.ok (none, d, output)) := by
  rw [StreamSpec, h.decodeSpec_eq]
  exact Or.inl ⟨d, output, rfl, by rw [zero_add]; exact h.pos, h.holds⟩

/-- The loop over a chunk follows the stream extended by the chunk. -/
theorem Reached.pushLoop_spec {fuel : ℕ} (h : Reached limits K d output s p n)
    (hcap : min (limits.maxBodyBytes : ℕ) (s ++ t).length ≤ K.capacity) (hfuel : t.length ≤ fuel) :
    StreamSpec limits K (s ++ t) (pushLoop fuel d t output) := by
  have hmax := limits.maxEncodedBytes.le_usizeMax
  have hle : s.length ≤ limits.maxEncodedBytes := h.received ▸ h.pos.received_le
  induction fuel generalizing d output s t p n with
  | zero =>
    have ht : t = [] := length_eq_zero_iff.1 (by omega)
    subst ht
    rw [append_nil]
    exact h.streamSpec
  | succ fuel ih =>
    unfold pushLoop
    dsimp only
    split_ifs with ht hzero
    · subst ht
      rw [append_nil]
      exact h.streamSpec
    · -- the limit is reached, and there is more
      rw [h.pos.limits_eq, h.received] at hzero
      have htpos := length_pos_iff.2 ht
      have hspec : decodeSpec limits (s ++ t) = .fail .encodedBodyTooLarge := by
        unfold decodeSpec
        rw [take_append_of_le_length (by omega), take_of_length_le (by omega), h.run_eq]
        exact if_pos (by rw [length_append]; omega)
      rw [StreamSpec, hspec]
      exact Or.inl rfl
    · rw [h.pos.limits_eq, h.received] at hzero ⊢
      set len := min (min t.length HTTP1_CHUNK_INPUT_FRAGMENT_BYTES)
        (limits.maxEncodedBytes - s.length) with hlen
      have htpos := length_pos_iff.2 ht
      have hpos : 0 < len :=
        lt_min (lt_min htpos (by decide)) (by omega)
      clear_value len
      have hf : (t.take len).length = len := by rw [length_take]; omega
      have hsplit : s ++ t = (s ++ t.take len) ++ t.drop len := by
        rw [append_assoc, take_append_drop]
      have hle' : (s ++ t.take len).length ≤ limits.maxEncodedBytes := by
        rw [length_append]
        omega
      have hproc := h.process_spec (f := t.take len) (by omega) (by omega)
        (by rw [hsplit, length_append] at hcap; omega)
      rw [hf, h.pos.limits_eq] at hproc
      rw [checkedAdd_of_le (by omega)]
      simp only [okOr_some, ok_bind]
      rcases hproc with hproc | hover
      · rw [hsplit]
        cases hrun : (chunkMachine limits).run .start (s ++ t.take len) with
        | pending q m =>
          rw [hrun] at hproc
          obtain ⟨d', output', hr, hreached⟩ := of_follows hrun hproc
          rw [hr]
          exact ih hreached (by rwa [← hsplit]) (by rw [length_drop]; omega) hle'
        | fail e =>
          rw [hrun] at hproc
          have hspec := (decodeSpec_of_le hle').trans hrun
          rw [StreamSpec, decodeSpec_append limits _ (by simp [hspec]), hspec, hproc]
          exact Or.inl rfl
        | done b m =>
          rw [hrun] at hproc
          obtain ⟨d', output', hr, hout⟩ := hproc
          have hspec := (decodeSpec_of_le hle').trans hrun
          rw [StreamSpec, decodeSpec_append limits _ (by simp [hspec]), hspec, hr]
          exact Or.inl ⟨d', output', rfl, hout⟩
      · obtain ⟨q, m, hrun, hover, e, he⟩ := hover
        refine Or.inr ⟨s ++ t.take len, ⟨t.drop len, hsplit.symm⟩, hle', q, m, hrun, hover, e, ?_⟩
        rw [he]
        rfl

/-- **`push` follows the stream extended by its chunk**, be the chunk empty or not. -/
theorem Reached.pushTo_spec (h : Reached limits K d output s p n)
    (hcap : min (limits.maxBodyBytes : ℕ) (s ++ t).length ≤ K.capacity) :
    d.pushTo t output = d.pushWithSink t output ∧
      StreamSpec limits K (s ++ t) (d.pushWithSink t output) := by
  have hle : s.length ≤ limits.maxEncodedBytes := h.received ▸ h.pos.received_le
  constructor
  · have hlen : Http1ChunkSink.len output = d.decodedLen := by
      rw [K.len_eq output h.holds.1, h.holds.2, h.pos.decoded_eq]
    exact if_neg (not_not.2 hlen)
  · unfold pushWithSink
    rw [h.pos.running]
    by_cases ht : t = []
    · subst ht
      have hproc := h.process_spec (f := []) (by simp) (by simpa using hle) hcap
      have hsame : ({ d with
          input := d.input ++ []
          receivedLen := s.length + ([] : Bytes).length } : Http1ChunkedDecoder) = d := by
        rw [← h.received]
        simp
      rw [hsame, append_nil, ← decodeSpec_of_le hle] at hproc
      rw [append_nil]
      rcases hproc with hproc | hover
      · exact Or.inl hproc
      · rw [decodeSpec_of_le hle] at hover
        exact Or.inr ⟨s, prefix_refl s, hle, hover⟩
    · rw [if_neg ht]
      exact h.pushLoop_spec hcap le_rfl

/-- **Feeding fragments follows the concatenation of the fragments.** -/
theorem Reached.feed_spec (fragments : List Bytes) (h : Reached limits K d output s p n)
    (hcap : min (limits.maxBodyBytes : ℕ) (s ++ fragments.flatten).length ≤ K.capacity) :
    StreamSpec limits K (s ++ fragments.flatten) (d.feed fragments output) := by
  induction fragments generalizing d output s p n with
  | nil =>
    rw [flatten_nil, append_nil]
    exact h.streamSpec
  | cons t fragments ih =>
    rw [flatten_cons, ← append_assoc] at hcap ⊢
    obtain ⟨hto, hpush⟩ := h.pushTo_spec (t := t) (by rw [length_append] at hcap; omega)
    rw [feed, hto]
    rcases hpush with hpush | ⟨u, hu, hle, q, m, hrun, hover, e, he⟩
    · cases hspec : decodeSpec limits (s ++ t) with
      | pending q m =>
        rw [hspec] at hpush
        obtain ⟨d', output', hr, hat, hout⟩ := hpush
        rw [hr]
        exact ih ⟨run_of_decodeSpec_pending hspec, by rwa [zero_add] at hat, hout⟩ hcap
      | fail e =>
        rw [hspec] at hpush
        rw [StreamSpec, decodeSpec_append limits _ (by simp [hspec]), hspec, hpush]
        exact Or.inl rfl
      | done b m =>
        rw [hspec] at hpush
        obtain ⟨d', output', hr, hout⟩ := hpush
        rw [StreamSpec, decodeSpec_append limits _ (by simp [hspec]), hspec, hr]
        exact Or.inl ⟨d', output', rfl, hout⟩
    · refine Or.inr ⟨u, hu.trans (prefix_append _ _), hle, q, m, hrun, hover, e, ?_⟩
      rw [he]
      rfl

/-- What a caller sees of a result: the completion and what the sink holds, or the error. -/
def view (K : SinkSpec S)
    (r : Except Http1ParseError (Option Http1ChunkedDecode × Http1ChunkedDecoder × S)) :
    Except Http1ParseError (Option Http1ChunkedDecode × Bytes) :=
  r.map fun (complete, _, output) => (complete, K.contents output)

/-- What a caller is to see of an outcome. -/
def specView : Outcome ChunkPosition Http1ParseError Bytes →
    Except Http1ParseError (Option Http1ChunkedDecode × Bytes)
  | .pending p _ => .ok (none, p.decoded)
  | .fail e => .error e
  | .done b n => .ok (some ⟨b.length, n⟩, b)

theorem Follows.view_eq (h : Follows limits K 0 s r o) : view K r = specView o := by
  cases o with
  | pending p n =>
    obtain ⟨d, output, rfl, -, hout⟩ := h
    simp [view, specView, hout.2]
  | fail e =>
    rw [show r = .error e from h]
    rfl
  | done b n =>
    obtain ⟨d, output, rfl, hout⟩ := h
    simp [view, specView, hout.2]

/-- The largest sum of an offset and a chunk size on the stream `s`, with the line end. -/
def reach (limits : Http1ChunkLimits) (s : Bytes) : ℕ :=
  min (min s.length limits.maxEncodedBytes) (offsetBound limits) + limits.maxChunkSize + 2

theorem not_overflow (hfit : reach limits s ≤ usizeMax) {u : Bytes} (hu : u <+: s)
    (hle : u.length ≤ limits.maxEncodedBytes)
    (hrun : (chunkMachine limits).run .start u = .pending p n) : ¬ Overflow limits p (0 + n) := by
  rintro ⟨size, hstate, hover⟩
  have hn := (chunkMachine limits).run_pending_le hrun
  have hlen := hu.length_le
  have hval : p.Valid limits (0 + n) := chunkMachine_run_valid limits hrun
  have hsize : size ≤ limits.maxChunkSize := by
    rcases hstate with hstate | ⟨-, rfl⟩
    · exact hval.size_le size hstate
    · exact Nat.zero_le _
  unfold reach at hfit
  omega

theorem StreamSpec.follows (hfit : reach limits s ≤ usizeMax)
    (h : StreamSpec limits K s r) : Follows limits K 0 s r (decodeSpec limits s) := by
  rcases h with h | ⟨u, hu, hle, p, n, hrun, hover, -⟩
  · exact h
  · exact absurd hover (not_overflow hfit hu hle hrun)

theorem StreamSpec.view_eq (hfit : reach limits s ≤ usizeMax)
    (h : StreamSpec limits K s r) : view K r = specView (decodeSpec limits s) :=
  (h.follows hfit).view_eq

end Http1ChunkedDecoder

open Http1ChunkedDecoder

/-- One-shot decoding follows the stream. -/
theorem decodeHttp1ChunkedBody_spec (limits : Http1ChunkLimits) {s buf : Bytes}
    (hbuf : min (limits.maxBodyBytes : ℕ) s.length ≤ buf.length) :
    StreamSpec limits (sliceSink buf.length) s
      ((new limits).pushWithSink s (⟨buf, 0⟩ : Http1SliceChunkSink)) := by
  have hmax := limits.maxBodyBytes.le_usizeMax
  have hreached : Reached limits (sliceSink buf.length) (new limits)
      (⟨buf, 0⟩ : Http1SliceChunkSink) [] .start 0 :=
    Reached.start ⟨⟨rfl, Nat.zero_le _⟩, rfl⟩
  exact (hreached.pushTo_spec (t := s) (le_min hbuf ((min_le_left _ _).trans hmax))).2

/-- **Fragmentation does not matter.**  Feeding a stream in fragments, to any sink with room for the
body, gives the error, or the completion and the bytes so far, that decoding it at once gives, as
long as no offset plus chunk size overflows. -/
theorem feed_eq_decodeHttp1ChunkedBody {S : Type} [Http1ChunkSink S] (K : SinkSpec S)
    (limits : Http1ChunkLimits) (fragments : List Bytes) (output : S) (buffer : Bytes)
    (hout : K.Holds output [])
    (hcap : min (limits.maxBodyBytes : ℕ) fragments.flatten.length ≤ K.capacity)
    (hbuffer : min (limits.maxBodyBytes : ℕ) fragments.flatten.length ≤ buffer.length)
    (hfit : reach limits fragments.flatten ≤ usizeMax) :
    ((new limits).feed fragments output).map (fun r => (r.1, K.contents r.2.2)) =
      (decodeHttp1ChunkedBody fragments.flatten buffer limits).map
        (fun r => (r.1, r.2.output.take r.2.len)) := by
  have hfeed : StreamSpec limits K fragments.flatten ((new limits).feed fragments output) :=
    (Reached.start hout).feed_spec (s := []) fragments hcap
  have honce := (decodeHttp1ChunkedBody_spec limits hbuffer).view_eq hfit
  calc ((new limits).feed fragments output).map (fun r => (r.1, K.contents r.2.2))
      = specView (decodeSpec limits fragments.flatten) := hfeed.view_eq hfit
    _ = view (sliceSink buffer.length) ((new limits).pushWithSink fragments.flatten
          (⟨buffer, 0⟩ : Http1SliceChunkSink)) := honce.symm
    _ = _ := by
      unfold view decodeHttp1ChunkedBody
      cases (new limits).pushWithSink fragments.flatten (⟨buffer, 0⟩ : Http1SliceChunkSink) <;> rfl

/-- A body in two fragments, cut within the first chunk. -/
theorem feed_two_fragments :
    ((new .default).feed [ascii "3\r\na", ascii "bc\r\n0\r\n\r\n"] ([] : Bytes)).map
        (fun r => (r.1, (vecSink 13).contents r.2.2)) =
      (decodeHttp1ChunkedBody (ascii "3\r\nabc\r\n0\r\n\r\n") (List.replicate 13 0) .default).map
        (fun r => (r.1, r.2.output.take r.2.len)) :=
  feed_eq_decodeHttp1ChunkedBody (vecSink 13) .default
    [ascii "3\r\na", ascii "bc\r\n0\r\n\r\n"] [] (replicate 13 0) ⟨trivial, rfl⟩
    (by decide +kernel) (by decide +kernel) (by decide +kernel)

/-- Limits with the largest possible chunk size. -/
def hugeChunkLimits : Http1ChunkLimits :=
  { Http1ChunkLimits.default with maxChunkSize := ⟨usizeMax, by decide⟩ }

/-- With the largest possible chunk size the fragments matter: at once the end of the second chunk
overflows, while after the first fragment the buffer is compacted and it does not. -/
theorem feed_ne_decode_of_overflow :
    ((new hugeChunkLimits).feed [ascii "1\r\na\r\n", ascii "FFFFFFFFFFFFFFEB\r\n"]
        ([] : Bytes)).map (fun r => (r.1, r.2.2)) = .ok (none, [97]) ∧
      (decodeHttp1ChunkedBody (ascii "1\r\na\r\nFFFFFFFFFFFFFFEB\r\n") (List.replicate 24 0)
        hugeChunkLimits).map (fun r => (r.1, r.2.output.take r.2.len)) =
          .error .chunkTooLarge := by
  constructor <;> rfl

end Fluxheim
