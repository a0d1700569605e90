import Fluxheim.Http1.ChunkedGrammar
import Fluxheim.Http1.HeadGrammar
import Fluxheim.Server.Connection

/-!
# A connection depends on its bytes

What is served depends on the bytes that arrive, not on how they are cut into reads: the loop serves
the bytes in the buffer and on the stream as `serveSpec` does, which has no buffer and no reads.
Between two messages the buffer holds at most what one read returned.
-/

namespace Fluxheim

open Ascii Fallible Search Incremental Http1ChunkedDecoder List

variable {n req length : ℕ}

/-- A read takes bytes off the front of the stream, and none only at its end. -/
theorem readSocket_spec (hn : 0 < n) (sock : List Bytes) :
    (readSocket n sock).1 ++ (readSocket n sock).2.flatten = sock.flatten ∧
      (readSocket n sock).1.length ≤ n ∧
      ((readSocket n sock).1 = [] ↔ sock.flatten = []) := by
  induction sock with
  | nil => simp [readSocket]
  | cons seg sock ih =>
    cases seg with
    | nil => simpa [readSocket] using ih
    | cons b seg =>
      refine ⟨?_, length_take_le _ _, ?_⟩
      · simp only [readSocket, flatten_cons, ← append_assoc, take_append_drop]
      · simp [readSocket]
        omega

/-! ### The head -/

/-- The head at the front of the bytes `s`, which are all there are. -/
def headSpec (limits : Http1HeadLimits) (s : Bytes) :
    Except Http1ParseError (Option ValidatedHttp1RequestHead) :=
  match parseHttp1RequestHead s limits with
  | .ok none => if s.length ≥ limits.maxHeadBytes then .error .headTooLarge else .ok none
  | r => r

variable {limits : Http1HeadLimits}

variable {s x b rest : Bytes}

theorem headSpec_of_ne (h : parseHttp1RequestHead s limits ≠ .ok none) :
    headSpec limits s = parseHttp1RequestHead s limits := by
  unfold headSpec
  split
  · rename_i hs
    exact absurd hs h
  · rfl

variable {head : ValidatedHttp1RequestHead}

theorem headSpec_eq_some_iff :
    headSpec limits s = .ok (some head) ↔ parseHttp1RequestHead s limits = .ok (some head) := by
  unfold headSpec
  split
  · rename_i hs
    rw [hs]
    split_ifs <;> simp
  · rfl

/-- A head that is decided by the first bytes of the stream is that of the stream. -/
theorem headSpec_append (t : Bytes) (h : parseHttp1RequestHead x limits ≠ .ok none) :
    headSpec limits (x ++ t) = parseHttp1RequestHead x limits := by
  have happ := parseHttp1RequestHead_append t h
  rw [headSpec_of_ne (by rwa [happ]), happ]

/-- As many bytes as a head may have, and no end of the head in them. -/
theorem headSpec_too_large (t : Bytes) (h : parseHttp1RequestHead x limits = .ok none)
    (hlen : limits.maxHeadBytes ≤ x.length) : headSpec limits (x ++ t) = .error .headTooLarge := by
  obtain ⟨hfind, -⟩ := parseHttp1RequestHead_eq_none_iff.1 h
  have hcomplete : completeHeadLen (x ++ t) limits.maxHeadBytes = .error .headTooLarge ∨
      completeHeadLen (x ++ t) limits.maxHeadBytes = .ok none := by
    rw [completeHeadLen_eq]
    cases hall : findSub headEnd (x ++ t) with
    | none =>
      split_ifs
      · exact Or.inl rfl
      · exact Or.inr rfl
    | some i =>
      have := lt_of_findSub_append hfind hall
      dsimp only
      rw [if_pos (by omega)]
      exact Or.inl rfl
  unfold headSpec parseHttp1RequestHead parseHttp1RequestHeadRaw
  rcases hcomplete with hcomplete | hcomplete
  · rw [hcomplete]
    rfl
  · rw [hcomplete]
    exact if_pos (by rw [length_append]; omega)

/-- What the head reader leaves: the head is in the buffer, and the buffer holds at most a read
more. -/
structure HeadRead (limits : Http1HeadLimits) (s : Bytes) (head : ValidatedHttp1RequestHead)
    (buffer : Bytes) (socket : List Bytes) : Prop where
  bytes_eq : buffer ++ socket.flatten = s
  parsed : parseHttp1RequestHead buffer limits = .ok (some head)
  buffer_le : buffer.length ≤ head.head.headLen + READ_CHUNK_BYTES

/-- A result of the head reader is what the bytes `s` ask for. -/
def HeadResult (limits : Http1HeadLimits) (s : Bytes)
    (r : Except Http1ParseError (Option ℕ × Bytes × List Bytes)) : Prop :=
  match headSpec limits s with
  | .error e => r = .error e
  | .ok none => ∃ buffer socket, r = .ok (none, buffer, socket)
  | .ok (some head) => ∃ buffer socket, r = .ok (some head.head.headLen, buffer, socket) ∧
      HeadRead limits s head buffer socket

/-- **The head reader depends on the bytes in the buffer and on the stream.** -/
theorem readUntilHead_spec (fuel : ℕ) (buf : Bytes) (sock : List Bytes)
    (hfuel : sock.flatten.length < fuel)
    (hbuf : ∀ head, parseHttp1RequestHead buf limits = .ok (some head) →
      buf.length ≤ head.head.headLen + READ_CHUNK_BYTES) :
    HeadResult limits (buf ++ sock.flatten) (readUntilHead limits fuel buf sock) := by
  induction fuel generalizing buf sock with
  | zero => omega
  | succ fuel ih =>
    unfold readUntilHead
    rcases hparse : parseHttp1RequestHead buf limits with e | _ | head
    · have hspec := headSpec_append sock.flatten (by rw [hparse]; simp)
      rw [HeadResult, hspec, hparse]
    · dsimp only
      by_cases hlen : limits.maxHeadBytes ≤ buf.length
      · rw [if_pos hlen, HeadResult, headSpec_too_large _ hparse hlen]
      · rw [if_neg hlen]
        obtain ⟨hby, hchunk_le, hempty⟩ :=
          readSocket_spec (show 0 < READ_CHUNK_BYTES by decide) sock
        generalize (readSocket READ_CHUNK_BYTES sock).1 = chunk at *
        generalize (readSocket READ_CHUNK_BYTES sock).2 = rest at *
        by_cases hchunk : chunk = []
        · -- the stream has ended: the buffer is all there is
          rw [if_pos hchunk, HeadResult, hempty.1 hchunk, append_nil, headSpec, hparse]
          rw [if_neg hlen]
          exact ⟨buf, rest, rfl⟩
        · rw [if_neg hchunk, ← hby, ← append_assoc]
          have hpos := length_pos_iff.2 hchunk
          refine ih (buf ++ chunk) rest ?_ ?_
          · rw [← hby, length_append] at hfuel
            omega
          · intro head hhead
            obtain ⟨i, hfind, hi, -⟩ := headLen_of_parse hhead
            have := lt_of_findSub_append (parseHttp1RequestHead_eq_none_iff.1 hparse).1 hfind
            rw [length_append]
            omega
    · have hspec := headSpec_append sock.flatten (by rw [hparse]; simp)
      rw [HeadResult, hspec, hparse]
      exact ⟨buf, sock, rfl, rfl, hparse, hbuf head hparse⟩

/-- A result of a body reader is what is asked for: the body, and in the buffer and on the stream
the bytes after it. -/
def BodyResult (r : Except Http1ParseError (NativeHttp1RequestBody × Bytes × List Bytes)) :
    Except Http1ParseError (Bytes × Bytes) → Prop
  | .error e => r = .error e
  | .ok (b, rest) => ∃ body buffer socket, r = .ok (body, buffer, socket) ∧ body.bytes = b ∧
      buffer ++ socket.flatten = rest ∧ buffer.length ≤ READ_CHUNK_BYTES

/-- A body of `length` bytes at the front of the bytes `s`. -/
def lengthSpec (length : ℕ) (maxBodyBytes : Usize) (s : Bytes) :
    Except Http1ParseError (Bytes × Bytes) :=
  if maxBodyBytes < length ∨ isizeMax < length then .error .bodyTooLarge
  else if s.length < length then .error .invalidContentLength
  else .ok (s.take length, s.drop length)

variable {body : NativeHttp1RequestBody}

theorem reserveCapacity_of_le (h : req ≤ max body.capacity isizeMax) :
    body.reserveCapacity req = .ok { body with capacity := max body.capacity req } := by
  unfold NativeHttp1RequestBody.reserveCapacity
  by_cases hcap : req ≤ body.capacity
  · rw [if_pos hcap, max_eq_left hcap]
  · have hmax : ¬ req > isizeMax := by
      rcases le_max_iff.1 h with h | h
      · exact absurd h hcap
      · exact not_lt.2 h
    rw [if_neg hcap, if_neg hmax, max_eq_right (not_le.1 hcap).le]

theorem replaceCapacity_of_le (h : req ≤ isizeMax) : body.replaceCapacity req =
      .ok { body with capacity := max req body.bytes.length } :=
  if_neg (not_lt.2 h)

theorem extendFromSlice_of_le {bytes : Bytes} (h : body.bytes.length + bytes.length ≤ isizeMax) :
    body.extendFromSlice bytes = .ok ⟨body.bytes ++ bytes,
      max body.capacity (body.bytes.length + bytes.length)⟩ := by
  have hmax : isizeMax ≤ usizeMax := by decide
  unfold NativeHttp1RequestBody.extendFromSlice
  rw [checkedAdd_of_le (h.trans hmax), okOr_some, ok_bind,
    reserveCapacity_of_le (h.trans (le_max_right _ _)), ok_bind]

/-- The loop reads what the body lacks, and no byte more. -/
theorem readLengthLoop_spec (hmax : length ≤ isizeMax) (fuel : ℕ)
    (body : NativeHttp1RequestBody) (sock : List Bytes) (hfuel : sock.flatten.length < fuel)
    (hbody : body.bytes.length ≤ length) :
    if (body.bytes ++ sock.flatten).length < length then
      readLengthLoop length fuel body sock = .error .invalidContentLength
    else ∃ cap rest, readLengthLoop length fuel body sock =
        .ok (⟨(body.bytes ++ sock.flatten).take length, cap⟩, rest) ∧
      rest.flatten = (body.bytes ++ sock.flatten).drop length := by
  induction fuel generalizing body sock with
  | zero => omega
  | succ fuel ih =>
    unfold readLengthLoop
    by_cases hlt : body.bytes.length < length
    · rw [if_pos hlt]
      obtain ⟨hby, hchunk_le, hempty⟩ := readSocket_spec
        (show 0 < min (length - body.bytes.length) READ_CHUNK_BYTES from
          lt_min (by omega) (by decide)) sock
      dsimp only
      generalize (readSocket (min (length - body.bytes.length) READ_CHUNK_BYTES) sock).1 = chunk
        at *
      generalize (readSocket (min (length - body.bytes.length) READ_CHUNK_BYTES) sock).2 = rest
        at *
      by_cases hchunk : chunk = []
      · rw [if_pos hchunk, hempty.1 hchunk, append_nil, if_pos hlt]
      · have hpos := length_pos_iff.2 hchunk
        rw [if_neg hchunk, extendFromSlice_of_le (by omega), ← hby, ← append_assoc]
        refine ih ⟨body.bytes ++ chunk, _⟩ rest ?_ ?_
        · rw [← hby, length_append] at hfuel
          omega
        · simp only [length_append]
          omega
    · have hlen : body.bytes.length = length := by omega
      rw [if_neg hlt, if_neg (by rw [length_append]; omega)]
      refine ⟨body.capacity, sock, ?_, ?_⟩
      · rw [← hlen, take_left]
      · rw [← hlen, drop_left]

/-- What is in the buffer of a body is taken from there, and the rest is read. -/
theorem readLength_spec (hmax : length ≤ isizeMax) (x : Bytes) (cap : ℕ)
    (sock : List Bytes) (hx : x.length ≤ READ_CHUNK_BYTES) :
    BodyResult (do
        let (body, sock) ← readLengthLoop length (sock.flatten.length + 1)
          ⟨x.take (min x.length length), cap⟩ sock
        .ok (body, x.drop (min x.length length), sock))
      (if (x ++ sock.flatten).length < length then .error .invalidContentLength
        else .ok ((x ++ sock.flatten).take length, (x ++ sock.flatten).drop length)) := by
  have hloop := readLengthLoop_spec hmax (sock.flatten.length + 1)
    ⟨x.take (min x.length length), cap⟩ sock (Nat.lt_succ_self _)
    (by rw [length_take]; omega)
  dsimp only at hloop
  rcases le_total length x.length with hle | hle
  · -- the buffer holds all of the body
    have htake : (x.take length).length = length := by
      rw [length_take]
      omega
    rw [min_eq_right hle] at hloop ⊢
    rw [if_neg (by rw [length_append]; omega)] at hloop ⊢
    obtain ⟨cap', rest, hr, hrest⟩ := hloop
    rw [hr]
    refine ⟨_, _, rest, rfl, ?_, ?_, ?_⟩
    · show (x.take length ++ sock.flatten).take length = (x ++ sock.flatten).take length
      rw [take_append_of_le_length hle, take_append_of_le_length htake.ge, take_take, min_self]
    · rw [hrest, drop_append_of_le_length hle, drop_append_of_le_length htake.ge,
        drop_take, Nat.sub_self, take_zero, nil_append]
    · rw [length_drop]
      omega
  · rw [min_eq_left hle, take_length] at hloop
    rw [min_eq_left hle, take_length, drop_length]
    split_ifs at hloop ⊢ with hshort
    · rw [hloop]
      rfl
    · obtain ⟨cap', rest, hr, hrest⟩ := hloop
      rw [hr]
      exact ⟨_, [], rest, rfl, rfl, hrest, Nat.zero_le _⟩

/-! ### A chunked body -/

variable (maxBodyBytes : Usize)

/-- The limits of a chunked body. -/
def chunkedLimits : Http1ChunkLimits :=
  Http1ChunkLimits.default.withMaxBodyBytes maxBodyBytes

/-- What an outcome of the decoder means for the bytes `s`, which are all there are. -/
def chunkedOutcome (s : Bytes) :
    Outcome ChunkPosition Http1ParseError Bytes → Except Http1ParseError (Bytes × Bytes)
  | .done b n => .ok (b, s.drop n)
  | .pending _ _ => .error .invalidChunk
  | .fail e => .error e

/-- A chunked body at the front of the bytes `s`. -/
def chunkedSpec (s : Bytes) : Except Http1ParseError (Bytes × Bytes) :=
  chunkedOutcome s (decodeSpec (chunkedLimits maxBodyBytes) s)

/-- More than a chunked body can take up while it is read, however large a body may be: the
number of chunks and their size are bounded. -/
def streamRoom : ℕ := 2 ^ 41

/-- Room for a body of that size, and its growth. -/
def bodyRoom : ℕ := 2 ^ 43

/-- A request body as a sink. -/
def bodySink : SinkSpec NativeHttp1RequestBody where
  capacity := bodyRoom
  valid body := body.capacity ≤ bodyRoom
  contents body := body.bytes
  len_eq _ _ := rfl
  append_ok body c hvalid hfit := by
    have hroom : bodyRoom ≤ isizeMax := by decide
    refine ⟨_, extendFromSlice_of_le (hfit.trans hroom), ?_, rfl⟩
    exact max_le hvalid hfit

/-- A stream on which the decoder waits is short. -/
theorem length_le_of_pending {maxBodyBytes : Usize} {p : ChunkPosition}
    (h : (chunkMachine (chunkedLimits maxBodyBytes)).run .start s = .pending p n) :
    s.length ≤ streamRoom := by
  have hval := chunkMachine_run_valid _ h
  have hwait := (chunkMachine (chunkedLimits maxBodyBytes)).step_of_run_pending h
  have hrest := length_le_of_wait _ hval hwait
  have hcons := hval.consumed_le
  have hmul := Nat.mul_le_mul_right (chunkBound (chunkedLimits maxBodyBytes)) hval.count_le
  have hbound : ((chunkedLimits maxBodyBytes).maxChunkCount : ℕ) *
      chunkBound (chunkedLimits maxBodyBytes) = 1048576 * (8192 + 1048576 + 4) := rfl
  have hline : max ((chunkedLimits maxBodyBytes).maxChunkSize : ℕ)
      (chunkedLimits maxBodyBytes).maxChunkLineBytes = 1048576 := rfl
  rw [length_drop] at hrest
  unfold streamRoom
  omega

/-- No sum of the decoder overflows under these limits. -/
theorem reach_chunkedLimits_le (s : Bytes) : reach (chunkedLimits maxBodyBytes) s ≤ usizeMax := by
  have hoff : offsetBound (chunkedLimits maxBodyBytes) + 1048576 + 2 ≤ usizeMax := by
    show max 4096 (max 1048576 8192 + 1 + 8192) + 8192 + 2 + 1048576 + 2 ≤ usizeMax
    decide
  have hmin : reach (chunkedLimits maxBodyBytes) s ≤
      offsetBound (chunkedLimits maxBodyBytes) + 1048576 + 2 :=
    Nat.add_le_add_right (Nat.add_le_add_right (min_le_right _ _) _) _
  exact hmin.trans hoff

/-- Growth by a read is granted, and changes nothing but the capacity. -/
theorem reserveChunkedBodyGrowth_spec {growth : ℕ}
    (maxBodyBytes : Usize) (hcap : body.capacity ≤ bodyRoom)
    (hbody : body.bytes.length ≤ streamRoom) (hgrow : growth ≤ READ_CHUNK_BYTES) :
    ∃ cap, reserveChunkedBodyGrowth body growth maxBodyBytes = .ok ⟨body.bytes, cap⟩ ∧
      cap ≤ bodyRoom := by
  have hsum : body.bytes.length + growth ≤ streamRoom + READ_CHUNK_BYTES := add_le_add hbody hgrow
  unfold reserveChunkedBodyGrowth
  rw [checkedAdd_of_le (hsum.trans (by decide)), okOr_some, ok_bind]
  dsimp only
  by_cases hfits : min (body.bytes.length + growth) maxBodyBytes ≤ body.capacity
  · rw [if_pos hfits]
    exact ⟨body.capacity, rfl, hcap⟩
  · rw [if_neg hfits]
    -- the old capacity is less than what is required, and the new one at most twice that
    have hold : body.capacity ≤ streamRoom + READ_CHUNK_BYTES :=
      (not_le.1 hfits).le.trans ((min_le_left _ _).trans hsum)
    set admitted := min (max (min (body.bytes.length + growth) maxBodyBytes)
      (min (max body.capacity READ_CHUNK_BYTES * 2) usizeMax)) maxBodyBytes with hadmits
    have hnew : admitted ≤ (streamRoom + READ_CHUNK_BYTES) * 2 := by
      refine (min_le_left _ _).trans (max_le ?_ ?_)
      · exact (min_le_left _ _).trans (hsum.trans (by decide))
      · refine (min_le_left _ _).trans (Nat.mul_le_mul_right _ (max_le hold ?_))
        decide
    have hroom : admitted ≤ bodyRoom := hnew.trans (by decide)
    have hover : admitted + body.capacity ≤ usizeMax :=
      (add_le_add hroom hcap).trans (by decide)
    have hmax : admitted ≤ isizeMax := hroom.trans (by decide)
    rw [checkedAdd_of_le hover, reserveCapacity_of_le (hmax.trans (le_max_right _ _))]
    exact ⟨_, rfl, max_le hcap hroom⟩

section

variable {maxBodyBytes} {d : Http1ChunkedDecoder} {t : Bytes} {p : ChunkPosition}

/-- The decoder takes in a read, whatever growth was reserved. -/
theorem pushTo_follows (h : Reached (chunkedLimits maxBodyBytes) bodySink d body s p n)
    {cap : ℕ} (hcap : cap ≤ bodyRoom) (ht : t.length ≤ READ_CHUNK_BYTES) :
    Follows (chunkedLimits maxBodyBytes) bodySink 0 (s ++ t) (d.pushTo t ⟨body.bytes, cap⟩)
      (decodeSpec (chunkedLimits maxBodyBytes) (s ++ t)) := by
  have hs := length_le_of_pending h.run_eq
  have hreached : Reached (chunkedLimits maxBodyBytes) bodySink d ⟨body.bytes, cap⟩ s p n :=
    { h with holds := ⟨hcap, h.holds.2⟩ }
  have hroom : (s ++ t).length ≤ bodyRoom := by
    rw [length_append]
    exact (add_le_add hs ht).trans (by decide)
  obtain ⟨hpush, hspec⟩ := hreached.pushTo_spec (t := t) ((min_le_right _ _).trans hroom)
  rw [hpush]
  exact hspec.follows (reach_chunkedLimits_le maxBodyBytes _)

/-- A body that is complete with the bytes `t` was not complete before. -/
theorem lt_of_decodeSpec_done {limits : Http1ChunkLimits} {b : Bytes} {m : ℕ}
    (hs : decodeSpec limits s = .pending p n) (h : decodeSpec limits (s ++ t) = .done b m) :
    s.length < m ∧ m ≤ (s ++ t).length := by
  obtain ⟨body, ⟨hin, hencoded, hbegins⟩, rfl, rfl⟩ := (decodeSpec_eq_done_iff_body limits).1 h
  refine ⟨?_, hbegins.length_le⟩
  by_contra hle
  have hbegins' : body.encode <+: s :=
    prefix_of_prefix_length_le hbegins (prefix_append s t) (by omega)
  have hdone := (decodeSpec_eq_done_iff_body limits).2 ⟨body, ⟨hin, hencoded, hbegins'⟩, rfl, rfl⟩
  rw [hs] at hdone
  cases hdone

theorem chunkedSpec_append (h : ∀ p n, decodeSpec (chunkedLimits maxBodyBytes) s ≠ .pending p n) :
    chunkedSpec maxBodyBytes (s ++ t) =
      chunkedOutcome (s ++ t) (decodeSpec (chunkedLimits maxBodyBytes) s) := by
  rw [chunkedSpec, decodeSpec_append _ t h]

/-- The loop reads until the body is complete, and keeps what of the last read follows it. -/
theorem readChunkedLoop_spec (fuel : ℕ) (sock : List Bytes)
    (h : Reached (chunkedLimits maxBodyBytes) bodySink d body s p n)
    (hfuel : sock.flatten.length < fuel) :
    BodyResult (readChunkedLoop maxBodyBytes fuel d body s.length sock)
      (chunkedSpec maxBodyBytes (s ++ sock.flatten)) := by
  induction fuel generalizing d body s p n sock with
  | zero => omega
  | succ fuel ih =>
    unfold readChunkedLoop
    obtain ⟨hby, hchunk_le, hempty⟩ :=
      readSocket_spec (show 0 < READ_CHUNK_BYTES by decide) sock
    dsimp only
    generalize (readSocket READ_CHUNK_BYTES sock).1 = chunk at *
    generalize (readSocket READ_CHUNK_BYTES sock).2 = rest at *
    by_cases hchunk : chunk = []
    · rw [if_pos hchunk, hempty.1 hchunk, append_nil, chunkedSpec, h.decodeSpec_eq]
      rfl
    · have hpos := length_pos_iff.2 hchunk
      have hs := length_le_of_pending h.run_eq
      have hsum : s.length + chunk.length ≤ usizeMax :=
        (add_le_add hs hchunk_le).trans (by decide)
      have hbody : body.bytes.length ≤ streamRoom := by
        have hdec := h.pos.valid.decoded_le
        have hn := (chunkMachine (chunkedLimits maxBodyBytes)).run_pending_le h.run_eq
        rw [show body.bytes = p.decoded from h.holds.2]
        omega
      obtain ⟨cap, hgrow, hcap⟩ :=
        reserveChunkedBodyGrowth_spec maxBodyBytes h.holds.1 hbody hchunk_le
      have hpush := pushTo_follows h hcap hchunk_le
      rw [if_neg hchunk, checkedAdd_of_le hsum, okOr_some, ok_bind, hgrow, ok_bind, ← hby,
        ← append_assoc]
      cases hspec : decodeSpec (chunkedLimits maxBodyBytes) (s ++ chunk) with
      | pending q m =>
        rw [hspec] at hpush
        obtain ⟨d', body', hr, hat, hhold⟩ := hpush
        have hreached : Reached (chunkedLimits maxBodyBytes) bodySink d' body' (s ++ chunk) q m :=
          ⟨run_of_decodeSpec_pending hspec, by rwa [zero_add] at hat, hhold⟩
        rw [hr, ← length_append]
        refine ih rest hreached ?_
        rw [← hby, length_append] at hfuel
        omega
      | fail e =>
        rw [hspec] at hpush
        rw [chunkedSpec_append (by simp [hspec]), hspec,
          show d.pushTo chunk _ = .error e from hpush]
        rfl
      | done b m =>
        rw [hspec] at hpush
        obtain ⟨d', body', hr, hhold⟩ := hpush
        obtain ⟨hlt, hle⟩ := lt_of_decodeSpec_done h.decodeSpec_eq hspec
        rw [length_append] at hle
        rw [chunkedSpec_append (by simp [hspec]), hspec, hr, ok_bind]
        dsimp only
        rw [if_neg (by omega), zero_add]
        refine ⟨body', _, rest, rfl, hhold.2, ?_, ?_⟩
        · rw [append_assoc, drop_append, drop_of_length_le hlt.le, nil_append,
            drop_append_of_le_length (by omega)]
        · rw [length_drop]
          omega

/-- `read_chunked_body` depends on the bytes after the head. -/
theorem readChunkedBody_spec (sock : List Bytes) (buf : Bytes) (headLen : ℕ)
    (maxBodyBytes : Usize) (hbuf : buf.length ≤ headLen + READ_CHUNK_BYTES) :
    BodyResult (readChunkedBody sock buf headLen maxBodyBytes)
      (chunkedSpec maxBodyBytes (buf.drop headLen ++ sock.flatten)) := by
  have hinit : (buf.drop headLen).length ≤ READ_CHUNK_BYTES := by
    rw [length_drop]
    omega
  generalize hx : buf.drop headLen = initial at hinit ⊢
  have hstart : Reached (chunkedLimits maxBodyBytes) bodySink (new (chunkedLimits maxBodyBytes))
      NativeHttp1RequestBody.empty [] .start 0 := Reached.start ⟨Nat.zero_le _, rfl⟩
  obtain ⟨cap, hgrow, hcap⟩ :=
    reserveChunkedBodyGrowth_spec maxBodyBytes hstart.holds.1 (Nat.zero_le _) hinit
  have hpush := pushTo_follows hstart hcap hinit
  rw [nil_append] at hpush
  unfold readChunkedBody
  rw [← chunkedLimits]
  dsimp only
  rw [hx, hgrow, ok_bind]
  cases hspec : decodeSpec (chunkedLimits maxBodyBytes) initial with
  | pending q m =>
    rw [hspec] at hpush
    obtain ⟨d', body', hr, hat, hhold⟩ := hpush
    have hreached : Reached (chunkedLimits maxBodyBytes) bodySink d' body' initial q m :=
      ⟨run_of_decodeSpec_pending hspec, by rwa [zero_add] at hat, hhold⟩
    rw [hr]
    exact readChunkedLoop_spec _ sock hreached (Nat.lt_succ_self _)
  | fail e =>
    rw [hspec] at hpush
    rw [chunkedSpec_append (by simp [hspec]), hspec,
      show (new (chunkedLimits maxBodyBytes)).pushTo initial _ = .error e from hpush]
    rfl
  | done b m =>
    rw [hspec] at hpush
    obtain ⟨d', body', hr, hhold⟩ := hpush
    have hle : m ≤ initial.length := by
      obtain ⟨body, hbody, -, rfl⟩ := (decodeSpec_eq_done_iff_body _).1 hspec
      exact hbody.begins.length_le
    rw [chunkedSpec_append (by simp [hspec]), hspec, hr, ok_bind]
    rw [zero_add]
    refine ⟨body', _, sock, rfl, hhold.2, ?_, ?_⟩
    · rw [drop_append_of_le_length hle]
    · rw [length_drop]
      omega

end

/-- The body that a framing announces, at the front of the bytes `s`. -/
def bodySpec (framing : Http1BodyFraming) (maxBodyBytes : Usize) (s : Bytes) :
    Except Http1ParseError (Bytes × Bytes) :=
  match framing with
  | .noBody => .ok ([], s)
  | .contentLength length => lengthSpec length maxBodyBytes s
  | .chunked => chunkedSpec maxBodyBytes s

/-- **The body reader depends on the bytes after the head**, and leaves those after the body. -/
theorem readBodyInner_spec (sock : List Bytes) (buf : Bytes) (headLen : ℕ)
    (framing : Http1BodyFraming) (maxBodyBytes : Usize) (hhead : headLen ≤ buf.length)
    (hbuf : buf.length ≤ headLen + READ_CHUNK_BYTES) :
    BodyResult (readBodyInner sock buf headLen framing maxBodyBytes)
      (bodySpec framing maxBodyBytes ((buf ++ sock.flatten).drop headLen)) := by
  have hmax := maxBodyBytes.le_usizeMax
  rw [drop_append_of_le_length hhead]
  cases framing with
  | noBody =>
    refine ⟨_, _, sock, rfl, rfl, rfl, ?_⟩
    rw [length_drop]
    omega
  | chunked => exact readChunkedBody_spec sock buf headLen maxBodyBytes hbuf
  | contentLength length =>
    unfold readBodyInner bodySpec lengthSpec
    dsimp only
    by_cases hlimit : maxBodyBytes < length
    · rw [if_pos (Or.inl hlimit)]
      split_ifs <;> rfl
    · rw [if_neg (show ¬ length > usizeMax by omega), if_neg hlimit]
      set available := min (buf.length - headLen) length with havail
      have hinit : (buf.take (headLen + available)).drop headLen
          = (buf.drop headLen).take available := by
        rw [drop_take, Nat.add_sub_cancel_left]
      rw [hinit]
      by_cases halloc : isizeMax < length
      · -- either the sum with the capacity overflows, or the vector is too large
        rw [if_pos (Or.inr halloc)]
        unfold checkedAdd
        split_ifs
        · rw [NativeHttp1RequestBody.replaceCapacity, if_pos halloc]
          rfl
        · rfl
      · have hcap : length + ((buf.drop headLen).take available).length ≤ usizeMax := by
          have hdouble : isizeMax + isizeMax ≤ usizeMax := by decide
          rw [length_take]
          omega
        rw [if_neg (by omega), NativeHttp1RequestBody.fromVec, checkedAdd_of_le hcap,
          replaceCapacity_of_le (not_lt.1 halloc), ← drop_drop]
        have hspec := readLength_spec (not_lt.1 halloc) (buf.drop headLen)
          (max length ((buf.drop headLen).take available).length) sock
          (by rw [length_drop]; omega)
        rwa [length_drop] at hspec

/-- Serving the bytes `s` at the end of which the stream ends: the requests with the bytes after
each, and how the connection ends. -/
def serveSpec (policy : DownstreamHttp1Policy) (handler : NativeHttp1Handler) :
    ℕ → List NativeHttp1Request → Bytes → List (NativeHttp1Request × Bytes) × ConnectionEnd
  | 0, _, _ => ([], .unfinished)
  | fuel + 1, history, s =>
    match headSpec policy.headLimits s with
    | .error e => ([], .headRejected (requestHeadErrorStatus e) e)
    | .ok none => ([], .closed)
    | .ok (some head) =>
      match reservationBytes head.validation.bodyFraming with
      | none => ([], .payloadTooLarge)
      | some reservation =>
        if ¬ handler.admits history (ownedRequestFromHead head) reservation then
          ([], .capacityUnavailable)
        else
          match bodySpec head.validation.bodyFraming policy.maxBodyBytes
            (s.drop head.head.headLen) with
          | .error e => ([], if e = .bodyTooLarge then .payloadTooLarge else .bodyRejected e)
          | .ok (b, rest) =>
            let request := { ownedRequestFromHead head with body := b }
            if handler.handlesConnectionTakeover history request then
              ([(request, rest)], .takenOver)
            else if head.validation.connectionDirective = .close ∨
                handler.closeRequested history request then
              ([(request, rest)], .closedAfterResponse)
            else
              let (deliveries, connectionEnd) :=
                serveSpec policy handler fuel (history ++ [request]) rest
              ((request, rest) :: deliveries, connectionEnd)

/-- What is seen of a served connection: the requests with the bytes after each, and the end. -/
def servedView (served : List Delivery × ConnectionEnd) :
    List (NativeHttp1Request × Bytes) × ConnectionEnd :=
  (served.1.map fun d => (d.request, d.rest), served.2)

variable {policy : DownstreamHttp1Policy} {handler : NativeHttp1Handler} (fuel : ℕ)

variable (history : List NativeHttp1Request)

/-- **The loop serves the bytes in the buffer and on the stream.** -/
theorem serveLoop_spec (buf : Bytes) (sock : List Bytes) (hbuf : buf.length ≤ READ_CHUNK_BYTES) :
    servedView (serveLoop policy handler fuel history buf sock) =
      serveSpec policy handler fuel history (buf ++ sock.flatten) := by
  induction fuel generalizing history buf sock with
  | zero => rfl
  | succ fuel ih =>
    unfold serveLoop serveSpec
    have hread : HeadResult policy.headLimits (buf ++ sock.flatten)
        (readUntilHead policy.headLimits (sock.flatten.length + 1) buf sock) :=
      readUntilHead_spec _ buf sock (Nat.lt_succ_self _)
        (fun head _ => hbuf.trans (Nat.le_add_left _ _))
    unfold HeadResult at hread
    rcases hspec : headSpec policy.headLimits (buf ++ sock.flatten) with e | _ | head
    · rw [hspec] at hread
      rw [hread]
      rfl
    · rw [hspec] at hread
      obtain ⟨buf', sock', hr⟩ := hread
      rw [hr]
      rfl
    · rw [hspec] at hread
      obtain ⟨buf', sock', hr, hby, hparsed, hle⟩ := hread
      obtain ⟨_, -, -, hlen⟩ := headLen_of_parse hparsed
      have hbody := readBodyInner_spec sock' buf' head.head.headLen head.validation.bodyFraming
        policy.maxBodyBytes hlen hle
      rw [hr]
      dsimp only
      rw [hparsed]
      dsimp only
      rw [← hby]
      cases reservationBytes head.validation.bodyFraming with
      | none => rfl
      | some reservation =>
        dsimp only
        by_cases hadmits : handler.admits history (ownedRequestFromHead head) reservation = true
        · rw [if_neg (not_not.2 hadmits), if_neg (not_not.2 hadmits)]
          rcases hbodySpec : bodySpec head.validation.bodyFraming policy.maxBodyBytes
            ((buf' ++ sock'.flatten).drop head.head.headLen) with e | ⟨b, rest⟩
          · rw [hbodySpec] at hbody
            rw [show readBodyInner _ _ _ _ _ = .error e from hbody]
            rfl
          · rw [hbodySpec] at hbody
            obtain ⟨body, buf'', sock'', hr', rfl, rfl, hle'⟩ := hbody
            rw [hr']
            dsimp only
            split_ifs
            · rfl
            · rfl
            · rw [← ih (history ++ [_]) buf'' sock'' hle']
              rfl
        · rw [if_pos hadmits, if_pos hadmits]
          rfl

/-! ### The messages of a stream -/

/-- The bytes by which a body is sent, by its framing. -/
inductive EncodedBody (maxBodyBytes : Usize) : Http1BodyFraming → Bytes → Bytes → Prop
  | noBody : EncodedBody maxBodyBytes .noBody [] []
  | contentLength (b : Bytes) : EncodedBody maxBodyBytes (.contentLength b.length) b b
  | chunked (b : ChunkedBody) (h : b.Within (chunkedLimits maxBodyBytes) 0 0 0) :
    EncodedBody maxBodyBytes .chunked b.encode b.data

/-- The bytes `m` are one message, a head and the body that it announces, with the request it
is delivered as. -/
def MessageOf (policy : DownstreamHttp1Policy) (m : Bytes) (request : NativeHttp1Request) : Prop :=
  ∃ (head : ValidatedHttp1RequestHead) (headText encoded : Bytes), m = headText ++ encoded ∧
    parseHttp1RequestHead headText policy.headLimits = .ok (some head) ∧
    head.head.headLen = headText.length ∧
    EncodedBody policy.maxBodyBytes head.validation.bodyFraming encoded request.body ∧
    request = { ownedRequestFromHead head with body := request.body }

/-- The messages follow each other in `s`: each begins where the one before ends. -/
def Accounts (policy : DownstreamHttp1Policy) : Bytes → List (NativeHttp1Request × Bytes) → Prop
  | _, [] => True
  | s, (request, rest) :: deliveries =>
    (∃ m, s = m ++ rest ∧ MessageOf policy m request) ∧ Accounts policy rest deliveries

theorem parseHttp1RequestHead_take (h : parseHttp1RequestHead s limits = .ok (some head)) :
    parseHttp1RequestHead (s.take head.head.headLen) limits = .ok (some head) := by
  obtain ⟨i, hfind, hi, hle⟩ := headLen_of_parse h
  have htake : findSub headEnd (s.take head.head.headLen) = some i := findSub_take hfind hi.ge
  rw [← h, ← parseHttp1RequestHead_append (s.drop head.head.headLen), take_append_drop]
  rw [Ne, parseHttp1RequestHead_eq_none_iff, htake]
  simp

theorem bodySpec_encoded {framing : Http1BodyFraming} {maxBodyBytes : Usize}
    (h : bodySpec framing maxBodyBytes s = .ok (b, rest)) :
    ∃ encoded, s = encoded ++ rest ∧ EncodedBody maxBodyBytes framing encoded b := by
  cases framing with
  | noBody =>
    cases h
    exact ⟨[], rfl, .noBody⟩
  | contentLength length =>
    unfold bodySpec lengthSpec at h
    dsimp only at h
    split_ifs at h with hlimit hshort
    cases h
    have hlen : (s.take length).length = length := by
      rw [length_take]
      omega
    refine ⟨s.take length, (take_append_drop _ _).symm, ?_⟩
    nth_rewrite 1 [← hlen]
    exact .contentLength _
  | chunked =>
    unfold bodySpec chunkedSpec at h
    cases hspec : decodeSpec (chunkedLimits maxBodyBytes) s with
    | pending p n => rw [hspec] at h; cases h
    | fail e => rw [hspec] at h; cases h
    | done b' n =>
      rw [hspec] at h
      cases h
      obtain ⟨body, ⟨hin, -, x, rfl⟩, rfl, rfl⟩ := (decodeSpec_eq_done_iff_body _).1 hspec
      exact ⟨body.encode, by rw [drop_left], .chunked body hin⟩

/-- What is delivered first is the first message. -/
theorem messageOf_of_spec (hhead : headSpec policy.headLimits s = .ok (some head))
    (hbody : bodySpec head.validation.bodyFraming policy.maxBodyBytes (s.drop head.head.headLen)
      = .ok (b, rest)) :
    ∃ m, s = m ++ rest ∧ 0 < m.length ∧
      MessageOf policy m { ownedRequestFromHead head with body := b } := by
  have hparse := headSpec_eq_some_iff.1 hhead
  obtain ⟨i, -, hi, hle⟩ := headLen_of_parse hparse
  obtain ⟨encoded, hencoded, hof⟩ := bodySpec_encoded hbody
  have htext : (s.take head.head.headLen).length = head.head.headLen := by
    rw [length_take]
    omega
  refine ⟨s.take head.head.headLen ++ encoded, ?_, ?_, head, _, encoded, rfl,
    parseHttp1RequestHead_take hparse, htext.symm, hof, rfl⟩
  · rw [append_assoc, ← hencoded, take_append_drop]
  · rw [length_append]
    omega

/-- What one turn does: it ends the connection, or delivers the first message of the stream and
then ends it or goes on with the bytes after the message. -/
theorem serveSpec_succ (s : Bytes) :
    (∃ connectionEnd, connectionEnd ≠ .unfinished ∧
      serveSpec policy handler (fuel + 1) history s = ([], connectionEnd)) ∨
    ∃ m req rest, s = m ++ rest ∧ 0 < m.length ∧ MessageOf policy m req ∧
      ((∃ connectionEnd, connectionEnd ≠ .unfinished ∧
          serveSpec policy handler (fuel + 1) history s = ([(req, rest)], connectionEnd)) ∨
        serveSpec policy handler (fuel + 1) history s =
          ((req, rest) :: (serveSpec policy handler fuel (history ++ [req]) rest).1,
            (serveSpec policy handler fuel (history ++ [req]) rest).2)) := by
  rw [serveSpec]
  rcases hhead : headSpec policy.headLimits s with e | _ | head
  · exact Or.inl ⟨_, by simp, rfl⟩
  · exact Or.inl ⟨_, by simp, rfl⟩
  · dsimp only
    cases reservationBytes head.validation.bodyFraming with
    | none => exact Or.inl ⟨_, by simp, rfl⟩
    | some reservation =>
      dsimp only
      by_cases hadmits : handler.admits history (ownedRequestFromHead head) reservation = true
      · rw [if_neg (not_not.2 hadmits)]
        rcases hbody : bodySpec head.validation.bodyFraming policy.maxBodyBytes
          (s.drop head.head.headLen) with e | ⟨b, rest⟩
        · refine Or.inl ⟨_, ?_, rfl⟩
          split_ifs <;> simp
        · obtain ⟨m, hm, hpos, hmessage⟩ := messageOf_of_spec hhead hbody
          refine Or.inr ⟨m, _, rest, hm, hpos, hmessage, ?_⟩
          dsimp only
          split_ifs
          · exact Or.inl ⟨_, by simp, rfl⟩
          · exact Or.inl ⟨_, by simp, rfl⟩
          · exact Or.inr rfl
      · rw [if_pos hadmits]
        exact Or.inl ⟨_, by simp, rfl⟩

theorem serveSpec_accounts (s : Bytes) :
    Accounts policy s (serveSpec policy handler fuel history s).1 := by
  induction fuel generalizing history s with
  | zero => trivial
  | succ fuel ih =>
    rcases serveSpec_succ fuel history s with
      ⟨e, -, h⟩ | ⟨m, req, rest, hm, -, hmessage, ⟨e, -, h⟩ | h⟩
    · rw [h]
      trivial
    · rw [h]
      exact ⟨⟨m, hm, hmessage⟩, trivial⟩
    · rw [h]
      exact ⟨⟨m, hm, hmessage⟩, ih _ rest⟩

/-- Every message takes a byte at least, so there are no more turns than bytes. -/
theorem serveSpec_ne_unfinished (s : Bytes)
    (hfuel : s.length < fuel) : (serveSpec policy handler fuel history s).2 ≠ .unfinished := by
  induction fuel generalizing history s with
  | zero => omega
  | succ fuel ih =>
    rcases serveSpec_succ fuel history s with
      ⟨e, he, h⟩ | ⟨m, req, rest, rfl, hpos, -, ⟨e, he, h⟩ | h⟩
    · rwa [h]
    · rwa [h]
    · rw [h]
      rw [length_append] at hfuel
      exact ih _ rest (by omega)

theorem servedView_serve (policy : DownstreamHttp1Policy) (handler : NativeHttp1Handler)
    (sock : List Bytes) : servedView (serveNativeHttp1Connection policy handler sock) =
      serveSpec policy handler (sock.flatten.length + 1) [] sock.flatten :=
  serveLoop_spec _ [] [] sock (Nat.zero_le _)

/-- **A connection depends on its bytes.**  However a stream is cut into reads, the same requests
are delivered, with the same bytes retained and unread after each, and the connection ends in the
same way.  The delivered messages follow each other in the stream, each a head and the body it
announces, with no byte between them. -/
theorem serveNativeHttp1Connection_segmentation (policy : DownstreamHttp1Policy)
    (handler : NativeHttp1Handler) (socket socket' : List Bytes)
    (h : socket.flatten = socket'.flatten) :
    servedView (serveNativeHttp1Connection policy handler socket) =
        servedView (serveNativeHttp1Connection policy handler socket') ∧
      Accounts policy socket.flatten
        (servedView (serveNativeHttp1Connection policy handler socket)).1 ∧
      (serveNativeHttp1Connection policy handler socket).2 ≠ .unfinished := by
  have hview := servedView_serve policy handler socket
  refine ⟨?_, ?_, ?_⟩
  · rw [hview, servedView_serve, h]
  · rw [hview]
    exact serveSpec_accounts _ _ _
  · show (servedView (serveNativeHttp1Connection policy handler socket)).2 ≠ .unfinished
    rw [hview]
    exact serveSpec_ne_unfinished _ _ _ (Nat.lt_succ_self _)

/-- A handler that keeps every connection. -/
def persistentHandler : NativeHttp1Handler where
  admits _ _ _ := true
  handlesConnectionTakeover _ _ := false
  closeRequested _ _ := false

/-- A chunked message and a pipelined one, cut within the chunk. -/
def pipelined : List Bytes :=
  [ascii "POST /a HTTP/1.1\r\nHost:b\r\nTransfer-Encoding:chunked\r\n\r\n2\r\nh",
    ascii "i\r\n0\r\n\r\nGET /c HTTP/1.1\r\nHost:b\r\n\r\n"]

theorem serve_pipelined_two_segments :
    servedView (serveNativeHttp1Connection .default persistentHandler pipelined) =
      servedView (serveNativeHttp1Connection .default persistentHandler [pipelined.flatten]) :=
  (serveNativeHttp1Connection_segmentation .default persistentHandler _ _ (by decide +kernel)).1

theorem EncodedBody.unique {maxBodyBytes : Usize} {framing : Http1BodyFraming}
    {e e' b b' x x' : Bytes}
    (h : EncodedBody maxBodyBytes framing e b) (h' : EncodedBody maxBodyBytes framing e' b')
    (heq : e ++ x = e' ++ x') : e = e' ∧ b = b' := by
  cases h with
  | noBody =>
    cases h'
    exact ⟨rfl, rfl⟩
  | contentLength =>
    generalize hframing : Http1BodyFraming.contentLength e.length = framing at h'
    cases h' with
    | contentLength =>
      have hsame := append_inj_left heq (Http1BodyFraming.contentLength.inj hframing)
      exact ⟨hsame, hsame⟩
    | _ => cases hframing
  | chunked body hin =>
    cases h' with
    | chunked body' hin' =>
      -- the decoder stops at the end of each
      have hrun := run_complete _ rfl body (p := .start) hin x
      rw [heq, run_complete _ rfl body' (p := .start) hin' x'] at hrun
      obtain ⟨hdata, hlen⟩ := Outcome.done.inj hrun
      exact ⟨append_inj_left heq hlen.symm, hdata.symm⟩

theorem MessageOf.unique {m m' x x' : Bytes} {req req' : NativeHttp1Request}
    (h : MessageOf policy m req) (h' : MessageOf policy m' req') (heq : m ++ x = m' ++ x') :
    req = req' ∧ x = x' := by
  obtain ⟨head, text, e, rfl, hparse, hlen, hbody, hreq⟩ := h
  obtain ⟨head', text', e', rfl, hparse', hlen', hbody', hreq'⟩ := h'
  rw [append_assoc, append_assoc] at heq
  have happ := parseHttp1RequestHead_append (e ++ x) (by rw [hparse]; simp)
  rw [heq, parseHttp1RequestHead_append (e' ++ x') (by rw [hparse']; simp), hparse, hparse'] at happ
  obtain rfl := Option.some.inj (Except.ok.inj happ)
  obtain ⟨rfl, hrest⟩ := append_inj heq (hlen.symm.trans hlen')
  obtain ⟨rfl, hb⟩ := hbody.unique hbody' hrest
  exact ⟨by rw [hreq, hreq', hb], append_cancel_left hrest⟩

theorem Accounts.comparable {s : Bytes} {ds ds' : List (NativeHttp1Request × Bytes)}
    (h : Accounts policy s ds) (h' : Accounts policy s ds') : ds <+: ds' ∨ ds' <+: ds := by
  induction ds generalizing s ds' with
  | nil => exact .inl nil_prefix
  | cons d ds ih =>
    cases ds' with
    | nil => exact .inr nil_prefix
    | cons d' ds' =>
      obtain ⟨⟨m, rfl, hm⟩, hds⟩ := h
      obtain ⟨⟨m', heq, hm'⟩, hds'⟩ := h'
      obtain ⟨hreq, hrest⟩ := hm.unique hm' heq
      obtain rfl : d = d' := Prod.ext hreq hrest
      simpa using ih hds hds'

theorem serve_accounts (socket : List Bytes) : Accounts policy socket.flatten
    (servedView (serveNativeHttp1Connection policy handler socket)).1 := by
  rw [servedView_serve]
  exact serveSpec_accounts _ _ _

/-- **No stream is divided into messages in two ways**: a division continues what is served, or what
is served continues it. -/
theorem served_messages_unambiguous (policy : DownstreamHttp1Policy) (handler : NativeHttp1Handler)
    (socket : List Bytes) (messages : List (NativeHttp1Request × Bytes))
    (h : Accounts policy socket.flatten messages) :
    (servedView (serveNativeHttp1Connection policy handler socket)).1 <+: messages ∨
      messages <+: (servedView (serveNativeHttp1Connection policy handler socket)).1 :=
  (serve_accounts socket).comparable h

/-- What is served of the two messages, by a handler that closes and by one that does not. -/
def servedTo (close : Bool) : List (NativeHttp1Request × Bytes) :=
  (servedView (serveNativeHttp1Connection .default
    { persistentHandler with closeRequested := fun _ _ => close } pipelined)).1

set_option maxRecDepth 4000 in
theorem served_messages_unambiguous_closed :
    (servedTo true).map (·.1.body) = [ascii "hi"] ∧
      (servedTo false).map (·.1.body) = [ascii "hi", []] ∧
      (servedTo true <+: servedTo false ∨ servedTo false <+: servedTo true) :=
  ⟨by decide +kernel, by decide +kernel, served_messages_unambiguous _ _ _ _ (serve_accounts _)⟩

end Fluxheim
