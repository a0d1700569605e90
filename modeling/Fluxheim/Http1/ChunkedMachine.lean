import Fluxheim.Lib.Incremental
import Fluxheim.Http1.Chunked

/-!
# Chunked decoding as an incremental machine

What the decoder does, told without its buffer: a machine that reads the unread bytes of the stream
from a `ChunkPosition`, that is, from the state of the decoder, its counters and the bytes decoded
so far.  There is no offset, no compaction and no overflow here, and numbers are unbounded.
-/

namespace Fluxheim

open Ascii Fallible Search Incremental List

/-- A position in the stream between two steps of the decoder. -/
structure ChunkPosition where
  state : Http1ChunkedDecodeState
  chunkCount : ℕ
  extensionBytes : ℕ
  decoded : Bytes

/-- The beginning of the stream. -/
def ChunkPosition.start : ChunkPosition := ⟨.size, 0, 0, []⟩

variable (limits : Http1ChunkLimits)

/-- Read a complete size line. -/
def readSizeLine (p : ChunkPosition) (line : Bytes) : Except Http1ParseError ChunkPosition :=
  if line.length > limits.maxChunkLineBytes then .error .chunkMetadataTooLarge
  else if p.chunkCount + 1 > limits.maxChunkCount then .error .chunkMetadataTooLarge
  else do
    let (size, extensionBytes) ← parseChunkSizeLine line limits.maxChunkSize
    if p.extensionBytes + extensionBytes > limits.maxChunkExtensionBytes then
      .error .chunkMetadataTooLarge
    else
      .ok { p with
        chunkCount := p.chunkCount + 1
        extensionBytes := p.extensionBytes + extensionBytes
        state := if size = 0 then .finish else .data size }

/-- One step of the machine on the unread bytes `x`. -/
def chunkStep (p : ChunkPosition) (x : Bytes) : Verdict ChunkPosition Http1ParseError Bytes :=
  match p.state with
  | .size =>
    match findSub crlf x with
    | none =>
      if pendingLineLen x > limits.maxChunkLineBytes then .fail .chunkMetadataTooLarge else .wait
    | some n =>
      match readSizeLine limits p (x.take n) with
      | .error e => .fail e
      | .ok p' => .next p' (n + 2)
  | .data size =>
    if x.length < size + 2 then .wait
    else if slice x size (size + 2) ≠ crlf then .fail .invalidChunk
    else if p.decoded.length + size > limits.maxBodyBytes then .fail .bodyTooLarge
    else .next { p with state := .size, decoded := p.decoded ++ x.take size } (size + 2)
  | .finish =>
    if x.length < 2 then .wait
    else if x.take 2 ≠ crlf then .fail .invalidChunk
    else .done p.decoded 2

variable {p : ChunkPosition} {x : Bytes}

theorem chunkStep_of_line_open (hs : p.state = .size)
    (hx : findSub crlf x = none) : chunkStep limits p x =
      if pendingLineLen x > limits.maxChunkLineBytes then .fail .chunkMetadataTooLarge
      else .wait := by
  simp only [chunkStep, hs, hx]

variable {i n k maxChunkSize size : ℕ}

theorem chunkStep_of_line (hs : p.state = .size)
    (hx : findSub crlf x = some i) : chunkStep limits p x =
      match readSizeLine limits p (x.take i) with
      | .error e => .fail e
      | .ok p' => .next p' (i + 2) := by
  simp only [chunkStep, hs, hx]

variable {t line : Bytes}

theorem slice_append_left {j : ℕ} (h : j ≤ x.length) : slice (x ++ t) i j = slice x i j := by
  unfold slice
  rw [take_append_of_le_length h]

/-- A line that has not ended yet ends no earlier than its pending length. -/
theorem pendingLineLen_le_of_findSub (hx : findSub crlf x = none)
    (h : findSub crlf (x ++ t) = some n) : pendingLineLen x ≤ n := by
  obtain ⟨hp, -, -⟩ := findSub_eq_some_iff.1 h
  unfold pendingLineLen
  by_cases hn : n < x.length
  · -- the line end straddles the two parts
    have hlast : n + 1 = x.length := by
      by_contra hne
      refine findSub_eq_none_iff.1 hx n (by omega) ?_
      rw [drop_append_of_le_length (by omega)] at hp
      exact prefix_of_prefix_length_le hp (prefix_append _ _) (by simp [crlf]; omega)
    have hcr : x.getLast? = some 13 := by
      rw [getLast?_eq_getElem?, ← hlast]
      obtain ⟨u, hu⟩ := hp
      have h0 := congrArg (fun l => l[0]?) hu
      simp only [crlf, cons_append, getElem?_cons_zero, getElem?_drop, add_zero] at h0
      rw [getElem?_append_left hn] at h0
      simpa using h0.symm
    rw [if_pos hcr]
    omega
  · omega

theorem pendingLineLen_append_le (x t : Bytes) : pendingLineLen x ≤ pendingLineLen (x ++ t) := by
  cases t with
  | nil => simp
  | cons b t =>
    unfold pendingLineLen
    rw [length_append, length_cons]
    split_ifs <;> omega

theorem chunkStep_append (p : ChunkPosition) (x t : Bytes) (h : chunkStep limits p x ≠ .wait) :
    chunkStep limits p (x ++ t) = chunkStep limits p x := by
  unfold chunkStep at h ⊢
  cases hs : p.state with
  | size =>
    simp only [hs] at h ⊢
    cases hx : findSub crlf x with
    | some n =>
      have hn := findSub_add_length_le hx
      simp only [findSub_append hx, take_append_of_le_length (Nat.le_of_add_right_le hn)]
    | none =>
      simp only [hx] at h ⊢
      have hlong : pendingLineLen x > limits.maxChunkLineBytes := by
        by_contra hc
        exact h (if_neg hc)
      rw [if_pos hlong]
      cases hxt : findSub crlf (x ++ t) with
      | none => exact if_pos (lt_of_lt_of_le hlong (pendingLineLen_append_le x t))
      | some n =>
        have hle := pendingLineLen_le_of_findSub hx hxt
        have hn := findSub_add_length_le hxt
        have hlen : ((x ++ t).take n).length > limits.maxChunkLineBytes := by
          rw [length_take]
          omega
        simp only [readSizeLine, if_pos hlen]
  | data size =>
    simp only [hs] at h ⊢
    have hlen : ¬ x.length < size + 2 := fun hc => h (if_pos hc)
    rw [if_neg hlen, if_neg (by rw [length_append]; omega), slice_append_left (by omega),
      take_append_of_le_length (by omega)]
  | finish =>
    simp only [hs] at h ⊢
    have hlen : ¬ x.length < 2 := fun hc => h (if_pos hc)
    rw [if_neg hlen, if_neg (by rw [length_append]; omega), take_append_of_le_length (by omega)]

variable {p' : ChunkPosition}

/-- The three ways to move on: nothing else happens in a step that neither waits nor stops. -/
theorem chunkStep_eq_next :
    chunkStep limits p x = .next p' k ↔
      (p.state = .size ∧ ∃ n, findSub crlf x = some n ∧ readSizeLine limits p (x.take n) = .ok p' ∧
        k = n + 2) ∨
      (∃ size, p.state = .data size ∧ k = size + 2 ∧ size + 2 ≤ x.length ∧
        slice x size (size + 2) = crlf ∧ p.decoded.length + size ≤ limits.maxBodyBytes ∧
        p' = { p with state := .size, decoded := p.decoded ++ x.take size }) := by
  unfold chunkStep
  cases hs : p.state with
  | size =>
    cases hx : findSub crlf x with
    | none =>
      split_ifs <;> simp
    | some n =>
      cases hr : readSizeLine limits p (x.take n) with
      | error e => simp [hr]
      | ok q => simp [hr, eq_comm]
  | data size =>
    simp only [reduceCtorEq, false_and, false_or, Http1ChunkedDecodeState.data.injEq]
    split_ifs with h1 h2 h3
    · simp; omega
    · simp [h2]
    · simp; omega
    · simp only [Verdict.next.injEq]
      constructor
      · rintro ⟨rfl, rfl⟩
        exact ⟨size, rfl, rfl, by omega, by simpa using h2, by omega, rfl⟩
      · rintro ⟨_, rfl, rfl, -, -, -, rfl⟩
        exact ⟨rfl, rfl⟩
  | finish =>
    simp only [reduceCtorEq, false_and, exists_false, or_false]
    split_ifs <;> simp

/-- The one way to finish. -/
theorem chunkStep_eq_done {r : Bytes} :
    chunkStep limits p x = .done r k ↔
      p.state = .finish ∧ 2 ≤ x.length ∧ x.take 2 = crlf ∧ r = p.decoded ∧ k = 2 := by
  unfold chunkStep
  cases hs : p.state with
  | size =>
    cases hx : findSub crlf x with
    | none =>
      split_ifs <;> simp
    | some n => cases hr : readSizeLine limits p (x.take n) <;> simp [hr]
  | data size =>
    simp only [reduceCtorEq, false_and]
    split_ifs <;> simp
  | finish =>
    simp only [true_and]
    split_ifs with h1 h2
    · simp; omega
    · simp [h2]
    · simp only [Verdict.done.injEq]
      constructor
      · rintro ⟨rfl, rfl⟩
        exact ⟨by omega, by simpa using h2, rfl, rfl⟩
      · rintro ⟨-, -, rfl, rfl⟩
        exact ⟨rfl, rfl⟩

/-- Chunked decoding as an incremental machine. -/
def chunkMachine : Machine UInt8 ChunkPosition Http1ParseError Bytes where
  step := chunkStep limits
  step_append := chunkStep_append limits
  next_pos p x p' k h := by
    rcases (chunkStep_eq_next limits).1 h with ⟨-, n, hn, -, rfl⟩ | ⟨size, -, rfl, hk, -⟩
    · have := findSub_add_length_le hn
      rw [crlf_length] at this
      omega
    · omega
  done_le p x r k h := by
    obtain ⟨-, hx, -, -, rfl⟩ := (chunkStep_eq_done limits).1 h
    exact hx

/-! ### Positions that occur -/

/-- The bytes that a state waits for, apart from lines. -/
def Http1ChunkedDecodeState.awaited : Http1ChunkedDecodeState → ℕ
  | .data n => n + 2
  | _ => 0

/-- The most bytes that one size line and its data take. -/
def chunkBound : ℕ := limits.maxChunkLineBytes + limits.maxChunkSize + 4

/-- What every position of a run satisfies.  `n` is the number of bytes read so far. -/
structure ChunkPosition.Valid (p : ChunkPosition) (n : ℕ) : Prop where
  size_le : ∀ size, p.state = .data size → size ≤ limits.maxChunkSize
  count_le : p.chunkCount ≤ limits.maxChunkCount
  decoded_le_body : p.decoded.length ≤ limits.maxBodyBytes
  decoded_le : p.decoded.length ≤ n
  consumed_le : n + p.state.awaited ≤ p.chunkCount * chunkBound limits

theorem ChunkPosition.start_valid : ChunkPosition.start.Valid limits 0 :=
  ⟨by simp [start], by simp [start], by simp [start], by simp [start],
    by simp [start, Http1ChunkedDecodeState.awaited]⟩

theorem parseChunkSizeDigits_le {size' : ℕ} {ds : Bytes}
    (h : parseChunkSizeDigits maxChunkSize size ds = .ok size') (hsize : size ≤ maxChunkSize) :
    size' ≤ maxChunkSize := by
  fun_induction parseChunkSizeDigits maxChunkSize size ds with
  | case1 size => cases h; exact hsize
  | case2 => cases h
  | case3 => cases h
  | case4 => cases h
  | case5 _ _ _ _ _ _ _ hle ih => exact ih h (by omega)

theorem parseChunkSizeLine_le {ext : ℕ}
    (h : parseChunkSizeLine line maxChunkSize = .ok (size, ext)) : size ≤ maxChunkSize := by
  unfold parseChunkSizeLine at h
  simp only at h
  split_ifs at h
  obtain ⟨size', hsize, h⟩ := bind_eq_ok.1 h
  obtain ⟨-, -, h⟩ := bind_eq_ok.1 h
  cases h
  exact parseChunkSizeDigits_le hsize (Nat.zero_le _)

/-- What reading a size line does, all of it. -/
theorem readSizeLine_eq_ok :
    readSizeLine limits p line = .ok p' ↔
      line.length ≤ limits.maxChunkLineBytes ∧ p.chunkCount + 1 ≤ limits.maxChunkCount ∧
      ∃ size ext, parseChunkSizeLine line limits.maxChunkSize = .ok (size, ext) ∧
        p.extensionBytes + ext ≤ limits.maxChunkExtensionBytes ∧
        p' = { p with
          chunkCount := p.chunkCount + 1
          extensionBytes := p.extensionBytes + ext
          state := if size = 0 then .finish else .data size } := by
  unfold readSizeLine
  split_ifs with h1 h2
  · simp; omega
  · simp; omega
  · rw [bind_eq_ok]
    constructor
    · rintro ⟨⟨size, ext⟩, hp, h⟩
      by_cases h3 : p.extensionBytes + ext > limits.maxChunkExtensionBytes
      · simp [h3] at h
      · simp only [if_neg h3] at h
        cases h
        exact ⟨by omega, by omega, size, ext, hp, by omega, rfl⟩
    · rintro ⟨-, -, size, ext, hp, h3, rfl⟩
      exact ⟨(size, ext), hp, if_neg (by omega)⟩

theorem ChunkPosition.Valid.next
    (hp : p.Valid limits n) (h : chunkStep limits p x = .next p' k) : p'.Valid limits (n + k) := by
  have hdec := hp.decoded_le
  have hcons := hp.consumed_le
  rcases (chunkStep_eq_next limits).1 h with
    ⟨hstate, i, hi, hr, rfl⟩ | ⟨size, hstate, rfl, hlen, -, hbody, rfl⟩
  · obtain ⟨hline, hcount, size, ext, hparse, -, rfl⟩ := (readSizeLine_eq_ok limits).1 hr
    have hsize := parseChunkSizeLine_le hparse
    have hlen := findSub_add_length_le hi
    rw [length_take] at *
    have hawa : (if size = 0 then Http1ChunkedDecodeState.finish else .data size).awaited
        ≤ limits.maxChunkSize + 2 := by
      split_ifs
      · exact Nat.zero_le _
      · exact Nat.add_le_add_right hsize 2
    refine ⟨fun size' hstate' => ?_, hcount, hp.decoded_le_body, by simp only; omega, ?_⟩
    · split_ifs at hstate'
      cases hstate'
      exact hsize
    · simp only [Nat.succ_mul, chunkBound] at hcons ⊢
      omega
  · have htake : (p.decoded ++ x.take size).length = p.decoded.length + size := by
      rw [length_append, length_take]
      omega
    rw [hstate] at hcons
    simp only [Http1ChunkedDecodeState.awaited] at hcons
    exact ⟨by simp, hp.count_le, by simp only [htake]; omega, by simp only [htake]; omega,
      by simp only [Http1ChunkedDecodeState.awaited]; omega⟩

theorem chunkMachine_run_valid
    (h : (chunkMachine limits).run .start x = .pending p n) : p.Valid limits (0 + n) :=
  (chunkMachine limits).run_pending_invariant (P := fun p n => p.Valid limits n)
    (fun _ _ _ _ _ hp hs => hp.next limits hs) (ChunkPosition.start_valid limits) h

/-- Where the machine waits, what it has not read yet is less than a line or a chunk. -/
theorem length_le_of_wait (hp : p.Valid limits n) (h : chunkStep limits p x = .wait) :
    x.length ≤ max (limits.maxChunkSize : ℕ) limits.maxChunkLineBytes + 1 := by
  unfold chunkStep at h
  cases hs : p.state with
  | size =>
    simp only [hs] at h
    cases hx : findSub crlf x with
    | none =>
      simp only [hx] at h
      split_ifs at h with hle
      have : x.length ≤ pendingLineLen x + 1 := by
        unfold pendingLineLen
        split_ifs <;> omega
      omega
    | some n =>
      simp only [hx] at h
      cases hr : readSizeLine limits p (x.take n) <;> simp [hr] at h
  | data size =>
    simp only [hs] at h
    have hsize := hp.size_le size hs
    split_ifs at h
    omega
  | finish =>
    simp only [hs] at h
    split_ifs at h
    omega

/-- The outcome of decoding the stream `s`: the machine sees no more than the encoded limit. -/
def decodeSpec (s : Bytes) : Outcome ChunkPosition Http1ParseError Bytes :=
  match (chunkMachine limits).run .start (s.take limits.maxEncodedBytes) with
  | .pending p n => if s.length > limits.maxEncodedBytes then .fail .encodedBodyTooLarge
    else .pending p n
  | o => o

/-- An outcome other than waiting is final. -/
theorem decodeSpec_append {s : Bytes} (t : Bytes) (h : ∀ p n, decodeSpec limits s ≠ .pending p n) :
    decodeSpec limits (s ++ t) = decodeSpec limits s := by
  unfold decodeSpec at h ⊢
  by_cases hlen : s.length ≤ limits.maxEncodedBytes
  · -- all of `s` is seen: what is seen of `s ++ t` extends it
    have htake : (s ++ t).take limits.maxEncodedBytes
        = s ++ t.take (limits.maxEncodedBytes - s.length) := by
      rw [take_append, take_of_length_le hlen]
    rw [htake, take_of_length_le hlen]
    rw [take_of_length_le hlen] at h
    rw [(chunkMachine limits).run_append]
    · cases hr : (chunkMachine limits).run .start s with
      | pending p n => exact absurd (by simp only [hr]; exact if_neg (by omega)) (h p n)
      | fail e => rfl
      | done r n => rfl
    · intro p n hr
      exact h p n (by simp only [hr]; exact if_neg (by omega))
  · rw [take_append_of_le_length (by omega)]
    cases hr : (chunkMachine limits).run .start (s.take limits.maxEncodedBytes) with
    | pending p n => simp only [length_append]; rw [if_pos (by omega), if_pos (by omega)]
    | fail e => rfl
    | done r n => rfl

end Fluxheim
