import Mathlib.Logic.Relation
import Fluxheim.Balancer.RuntimeStateRuns

/-!
# The table of sessions, in the course of time

A record in a full table makes room: the entries that are over go, and if none is, one that is over
first.  Where several are over at once, which of them goes depends on the order of the table, which
is not fixed.
-/

namespace Fluxheim.Balancer.LoadBalancerPersistenceState

open Ascii AList Option

variable (state : LoadBalancerPersistenceState)

/-- The table is full, and the key is new. -/
def NeedsRoom (key : Bytes) : Prop :=
  state.tableMaxEntries ≤ state.table.entries.length ∧ key ∉ state.table

/-- The sessions that are not over. -/
def dropExpired (now : Instant) : LoadBalancerPersistenceState :=
  { state with table := state.table.retain fun entry =>
      if now < entry.expiresAt then some entry else none }

/-- The table without a key. -/
def withoutKey (key : Bytes) : LoadBalancerPersistenceState :=
  { state with table := state.table.erase key }

/-- The room that is made. -/
inductive Clears (now : Instant) : LoadBalancerPersistenceState → Prop
  | expired (hroom : (state.dropExpired now).table.entries.length < state.tableMaxEntries) :
      Clears now (state.dropExpired now)
  | earliest (hfull : state.tableMaxEntries ≤ (state.dropExpired now).table.entries.length)
      (stale : Bytes) (entry : LoadBalancerPersistenceEntry)
      (hstale : (state.dropExpired now).table.lookup stale = some entry)
      (hfirst : ∀ key other, (state.dropExpired now).table.lookup key = some other →
        entry.expiresAt ≤ other.expiresAt) :
      Clears now ((state.dropExpired now).withoutKey stale)
  | nothing (hempty : (state.dropExpired now).table = ∅) : Clears now (state.dropExpired now)

variable {state} {now : Instant} {key : Bytes} {backendKey : Key}
  {cleared after : LoadBalancerPersistenceState} {entry : LoadBalancerPersistenceEntry}

theorem clears_makeRoom (state : LoadBalancerPersistenceState) (now : Instant) :
    state.Clears now (state.makeRoom now) := by
  rw [makeRoom]
  split_ifs with hfull
  · cases hstale : (state.dropExpired now).table.entries.argmin (·.2.expiresAt) with
    | none =>
      have hnil := List.argmin_eq_none.1 hstale
      rw [dropExpired] at hstale
      simp only [hstale]
      exact .nothing (ext hnil)
    | some stale =>
      have hmem := List.argmin_mem hstale
      have hleast : ∀ e ∈ (state.dropExpired now).table.entries,
          stale.2.expiresAt ≤ e.2.expiresAt := by
        intro e he
        have hle := List.le_of_mem_argmin he hstale
        exact hle
      rw [dropExpired] at hstale
      simp only [hstale]
      refine .earliest hfull stale.1 stale.2 (mem_lookup_iff.2 hmem) fun key other hother => ?_
      exact hleast ⟨key, other⟩ (mem_lookup_iff.1 hother)
  · exact .expired (not_le.1 hfull)

theorem mem_iff_lookup : key ∈ state.table ↔ ∃ e, state.table.lookup key = some e := by
  rw [← lookup_isSome, isSome_iff_exists]

theorem lookup_dropExpired : (state.dropExpired now).table.lookup key = some entry ↔
    state.table.lookup key = some entry ∧ now < entry.expiresAt := by
  rw [dropExpired, lookup_retain, bind_eq_some_iff]
  constructor
  · rintro ⟨kept, hkept, heq⟩
    split_ifs at heq with hleft
    obtain rfl := some.inj heq
    exact ⟨hkept, hleft⟩
  · rintro ⟨hkept, hleft⟩
    exact ⟨entry, hkept, if_pos hleft⟩

theorem mem_dropExpired (h : state.table.lookup key = some entry) :
    key ∈ (state.dropExpired now).table ↔ now < entry.expiresAt := by
  rw [mem_iff_lookup]
  constructor
  · rintro ⟨other, hother⟩
    obtain ⟨hlookup, hleft⟩ := lookup_dropExpired.1 hother
    obtain rfl := some.inj (h.symm.trans hlookup)
    exact hleft
  · exact fun hleft => ⟨entry, lookup_dropExpired.2 ⟨h, hleft⟩⟩

theorem dropExpired_eq_self (h : ∀ k e, state.table.lookup k = some e → now < e.expiresAt) :
    state.dropExpired now = state := by
  rw [dropExpired, retain_eq_self fun k e hk => if_pos (h k e hk)]

theorem length_dropExpired_lt (h : state.table.lookup key = some entry)
    (hover : entry.expiresAt ≤ now) :
    (state.dropExpired now).table.entries.length < state.table.entries.length := by
  refine length_retain_lt (mem_iff_lookup.2 ⟨entry, h⟩) fun hkept => ?_
  exact absurd ((mem_dropExpired h).1 hkept) (not_lt.2 hover)

namespace Clears

theorem fields (h : state.Clears now cleared) :
    cleared.ttlSecs = state.ttlSecs ∧ cleared.tableMaxEntries = state.tableMaxEntries := by
  cases h <;> exact ⟨rfl, rfl⟩

theorem sub (h : state.Clears now cleared) (hlookup : cleared.table.lookup key = some entry) :
    state.table.lookup key = some entry := by
  cases h with
  | expired | nothing => exact (lookup_dropExpired.1 hlookup).1
  | earliest => exact (lookup_dropExpired.1 (lookup_erase_sub hlookup)).1

/-- There is room afterwards, unless the table can hold nothing. -/
theorem length (h : state.Clears now cleared)
    (hle : state.table.entries.length ≤ state.tableMaxEntries) :
    cleared.table.entries.length < state.tableMaxEntries ∨
      cleared.table.entries.length = 0 ∧ state.tableMaxEntries = 0 := by
  have hdrop : (state.dropExpired now).table.entries.length ≤ state.table.entries.length :=
    length_retain_le _ _
  cases h with
  | expired hroom => exact Or.inl hroom
  | earliest hfull stale entry hstale hfirst =>
    have herase : ((state.dropExpired now).withoutKey stale).table.entries.length + 1 =
        (state.dropExpired now).table.entries.length :=
      length_erase_of_mem (mem_iff_lookup.2 ⟨entry, hstale⟩)
    omega
  | nothing hempty =>
    rw [hempty]
    exact (eq_zero_or_pos _).symm.imp id fun hzero => ⟨rfl, hzero⟩

end Clears

/-- The entries that are over go; if none is, one that is over first, and no other. -/
structure RoomMade (state : LoadBalancerPersistenceState) (now : Instant)
    (after : LoadBalancerPersistenceState) : Prop where
  expired : (∃ k e, state.table.lookup k = some e ∧ e.expiresAt ≤ now) →
    ∀ k e, state.table.lookup k = some e → (k ∉ after.table ↔ e.expiresAt ≤ now)
  earliest : (∀ k e, state.table.lookup k = some e → now < e.expiresAt) → state.table ≠ ∅ →
    ∃ stale e, state.table.lookup stale = some e ∧
      (∀ k other, state.table.lookup k = some other → e.expiresAt ≤ other.expiresAt) ∧
      ∀ k ∈ state.table, k ∉ after.table ↔ k = stale

theorem Clears.roomMade (h : state.Clears now cleared)
    (hle : state.table.entries.length ≤ state.tableMaxEntries)
    (hfull : state.tableMaxEntries ≤ state.table.entries.length) : state.RoomMade now cleared := by
  constructor
  · rintro ⟨first, entry, hfirst, hexp⟩ k e hk
    have hless := length_dropExpired_lt hfirst hexp
    cases h with
    | expired | nothing => rw [mem_dropExpired hk, not_lt]
    | earliest hsti => omega
  · intro hnone hsome
    have hself := dropExpired_eq_self hnone
    cases h with
    | expired hspace =>
      rw [hself] at hspace
      omega
    | nothing hempty => exact absurd (hself ▸ hempty) hsome
    | earliest hsti stale entry hstale hfirst =>
      rw [hself] at hstale hfirst
      refine ⟨stale, entry, hstale, hfirst, fun k hk => ?_⟩
      simp [hself, withoutKey, hk]

/-- What a record does: the new entry is there if the table can hold anything, no other is changed,
and those that go are the ones that make room. -/
structure Recorded (state : LoadBalancerPersistenceState) (now : Instant) (key : Bytes)
    (backendKey : Key) (after : LoadBalancerPersistenceState) : Prop where
  configured : after.tableMaxEntries = state.tableMaxEntries
  bounded : after.table.entries.length ≤ after.tableMaxEntries
  stored : 0 < state.tableMaxEntries → key ∈ after.table
  entry : ∀ e, after.table.lookup key = some e →
    e = ⟨backendKey, now + Duration.fromSecs state.ttlSecs⟩
  others : ∀ k e, k ≠ key → after.table.lookup k = some e → state.table.lookup k = some e
  kept : ¬ state.NeedsRoom key → ∀ k ∈ state.table, k ∈ after.table
  room : state.NeedsRoom key → state.RoomMade now after

theorem RoomMade.congr (h : state.RoomMade now cleared)
    (hsame : ∀ k ∈ state.table, k ∈ after.table ↔ k ∈ cleared.table) :
    state.RoomMade now after := by
  refine ⟨fun hover k e hk => ?_, fun hnone hsome => ?_⟩
  · rw [hsame k (mem_iff_lookup.2 ⟨e, hk⟩)]
    exact h.expired hover k e hk
  · obtain ⟨stale, e, hstale, hfirst, hgone⟩ := h.earliest hnone hsome
    exact ⟨stale, e, hstale, hfirst, fun k hk => by rw [hsame k hk, hgone k hk]⟩

/-- What is left when room has been made, if that was needed. -/
theorem exists_cleared (state : LoadBalancerPersistenceState) (now : Instant) (key : Bytes)
    (backendKey : Key) :
    ∃ cleared, (state.NeedsRoom key ∧ state.Clears now cleared ∨
        ¬ state.NeedsRoom key ∧ cleared = state) ∧
      state.record now key backendKey =
        if cleared.table.entries.length < cleared.tableMaxEntries ∨ key ∈ cleared.table then
          { cleared with table :=
              cleared.table.insert key ⟨backendKey, now + Duration.fromSecs cleared.ttlSecs⟩ }
        else cleared := by
  by_cases hroom : state.NeedsRoom key
  · refine ⟨state.makeRoom now, Or.inl ⟨hroom, clears_makeRoom state now⟩, ?_⟩
    rw [record, if_pos (show _ ∧ _ from hroom)]
  · refine ⟨state, Or.inr ⟨hroom, rfl⟩, ?_⟩
    rw [record, if_neg (show ¬ (_ ∧ _) from hroom)]

theorem recorded_record (now : Instant) (key : Bytes) (backendKey : Key)
    (hle : state.table.entries.length ≤ state.tableMaxEntries) :
    state.Recorded now key backendKey (state.record now key backendKey) := by
  obtain ⟨cleared, hcleared, heq⟩ := exists_cleared state now key backendKey
  obtain ⟨hfields, hsub, hbound⟩ : (cleared.ttlSecs = state.ttlSecs ∧
      cleared.tableMaxEntries = state.tableMaxEntries) ∧
      (∀ k e, cleared.table.lookup k = some e → state.table.lookup k = some e) ∧
      cleared.table.entries.length ≤ cleared.tableMaxEntries := by
    rcases hcleared with ⟨-, h⟩ | ⟨-, rfl⟩
    · refine ⟨h.fields, fun k e => h.sub, ?_⟩
      have := h.length hle
      have := h.fields.2
      omega
    · exact ⟨⟨rfl, rfl⟩, fun _ _ => id, hle⟩
  have hkept : ¬ state.NeedsRoom key → cleared = state := fun hroom =>
    (hcleared.resolve_left fun h => hroom h.1).2
  have hroom : state.NeedsRoom key → state.RoomMade now cleared := fun hroom =>
    (hcleared.resolve_right fun h => h.1 hroom).2.roomMade hle hroom.1
  rw [heq]
  split_ifs with hfits
  · refine ⟨hfields.2, ?_, fun _ => (mem_insert _).2 (Or.inl rfl), fun e he => ?_,
      fun k e hne hk => ?_, fun hno k hk => ?_, fun hneed => ?_⟩
    · by_cases hmem : key ∈ cleared.table
      · exact (length_insert_of_mem hmem _).trans_le hbound
      · exact (length_insert_le key _ _).trans (hfits.resolve_right hmem)
    · rw [lookup_insert, hfields.1] at he
      exact (some.inj he).symm
    · rw [lookup_insert_ne hne] at hk
      exact hsub k e hk
    · exact (mem_insert _).2 (Or.inr (hkept hno ▸ hk))
    · refine (hroom hneed).congr fun k hk => (mem_insert _).trans (or_iff_right ?_)
      exact fun hsame => hneed.2 (hsame ▸ hk)
  · obtain ⟨hfull, hmem⟩ := not_or.1 hfits
    refine ⟨hfields.2, hbound, fun hpos => absurd ?_ hfits,
      fun e he => absurd (mem_iff_lookup.2 ⟨e, he⟩) hmem, fun k e _ => hsub k e,
      fun hno k hk => hkept hno ▸ hk, hroom⟩
    -- a table that can hold something has room after it was made
    rcases hcleared with ⟨-, h⟩ | ⟨hno, rfl⟩
    · have := h.length hle
      omega
    · exact (not_and_or.1 hno).imp not_le.1 not_not.1

/-! ### The last records -/

/-- The last record of a key. -/
structure Remembered where
  backendKey : Key
  expiresAt : Instant
  evicted : Bool

/-- A table, the time of the last operation on it and the last record of every key. -/
structure Watched where
  state : LoadBalancerPersistenceState
  clock : Instant
  last : Bytes → Option Remembered

namespace Watched

/-- The last records after one more.  A record is evicted that has time left and is not in the
table. -/
def noted (w : Watched) (now : Instant) (key : Bytes) (backendKey : Key)
    (after : LoadBalancerPersistenceState) (k : Bytes) : Option Remembered :=
  (if k = key then some ⟨backendKey, now + Duration.fromSecs w.state.ttlSecs, false⟩
    else w.last k).map fun r =>
      { r with evicted := r.evicted || (decide (now < r.expiresAt) && decide (k ∉ after.table)) }

/-- A record, noted. -/
def record (w : Watched) (now : Instant) (key : Bytes) (backendKey : Key) : Watched :=
  ⟨w.state.record now key backendKey, now,
    w.noted now key backendKey (w.state.record now key backendKey)⟩

/-- The operations, and the table in another order. -/
inductive Step (w : Watched) : Watched → Prop
  | record {now : Instant} (hnow : w.clock ≤ now) (key : Bytes) (backendKey : Key) :
      Step w (w.record now key backendKey)
  | lookup {now : Instant} (hnow : w.clock ≤ now) (key : Bytes) :
      Step w ⟨(w.state.lookup now key).2, now, w.last⟩
  | reorder (table : AList fun _ : Bytes => LoadBalancerPersistenceEntry)
      (h : table.entries.Perm w.state.table.entries) :
      Step w { w with state := { w.state with table := table } }

/-- The table is what the last records say, within the bound of the configuration. -/
structure Kept (tableMaxEntries : ℕ) (w : Watched) : Prop where
  configured : w.state.tableMaxEntries = tableMaxEntries
  bounded : w.state.table.entries.length ≤ w.state.tableMaxEntries
  recorded : ∀ k e, w.state.table.lookup k = some e →
    w.last k = some ⟨e.backendKey, e.expiresAt, false⟩
  present : ∀ k r, w.last k = some r → r.evicted = false → w.clock < r.expiresAt →
    w.state.table.lookup k = some ⟨r.backendKey, r.expiresAt⟩

variable {w : Watched} {most : ℕ}

theorem Kept.record (h : w.Kept most) (now : Instant) (key : Bytes) (backendKey : Key) :
    (w.record now key backendKey).Kept most := by
  have hrec := recorded_record now key backendKey h.bounded
  have hrecd : ∀ k e, (w.record now key backendKey).state.table.lookup k = some e →
      (w.record now key backendKey).last k = some ⟨e.backendKey, e.expiresAt, false⟩ := by
    intro k e hk
    have hmem : k ∈ (w.state.record now key backendKey).table := mem_iff_lookup.2 ⟨e, hk⟩
    by_cases hkey : k = key
    · subst hkey
      simp [Watched.record, noted, hmem, hrec.entry e hk]
    · simp [Watched.record, noted, hkey, hmem, h.recorded k e (hrec.others k e hkey hk)]
  refine ⟨hrec.configured.trans h.configured, hrec.bounded, hrecd,
    fun k r hlast hkept hleft => ?_⟩
  -- a record with time left that is not evicted is in the table
  have hmem : k ∈ (w.state.record now key backendKey).table := by
    obtain ⟨before, -, rfl⟩ := map_eq_some_iff.1 hlast
    by_contra hgone
    have hsplit := (Bool.or_eq_false_iff.1 hkept).2
    simp [hgone, show now < before.expiresAt from hleft] at hsplit
  obtain ⟨e, he⟩ := mem_iff_lookup.1 hmem
  obtain rfl := some.inj ((hrecd k e he).symm.trans hlast)
  exact he

/-- A lookup drops the entry of its key if that is over. -/
theorem lookup_cases (state : LoadBalancerPersistenceState) (now : Instant) (key : Bytes) :
    (state.lookup now key).2 = state ∨ ∃ e, state.table.lookup key = some e ∧
      e.expiresAt ≤ now ∧ (state.lookup now key).2 = state.withoutKey key := by
  rw [lookup]
  cases hentry : state.table.lookup key with
  | none => exact Or.inl rfl
  | some e =>
    dsimp only
    split_ifs with hover
    · exact Or.inr ⟨e, rfl, hover, rfl⟩
    · exact Or.inl rfl

theorem Kept.lookup (h : w.Kept most) (hnow : w.clock ≤ now) (key : Bytes) :
    Kept most ⟨(w.state.lookup now key).2, now, w.last⟩ := by
  rcases lookup_cases w.state now key with hsame | ⟨e, he, hover, herase⟩
  · rw [hsame]
    exact ⟨h.configured, h.bounded, h.recorded, fun k r hr hkept hleft =>
      h.present k r hr hkept (hnow.trans_lt hleft)⟩
  · rw [herase]
    refine ⟨h.configured, (length_erase_le _ _).trans h.bounded,
      fun k other hk => h.recorded k other (lookup_erase_sub hk), fun k r hr hkept hleft => ?_⟩
    have hpre := h.present k r hr hkept (hnow.trans_lt hleft)
    have hne : k ≠ key := by
      rintro rfl
      rw [hpre] at he
      obtain rfl := some.inj he
      exact absurd hleft (not_lt.2 hover)
    exact (lookup_erase_ne hne).trans hpre

theorem Kept.step (h : w.Kept most) {next : Watched} (hstep : w.Step next) : next.Kept most := by
  cases hstep with
  | record hnow key backendKey => exact h.record _ key backendKey
  | lookup hnow key => exact h.lookup hnow key
  | reorder table hperm =>
    have hsame : ∀ k, table.lookup k = w.state.table.lookup k := fun k => perm_lookup hperm
    exact ⟨h.configured, hperm.length_eq.trans_le h.bounded,
      fun k e hk => h.recorded k e ((hsame k).symm.trans hk),
      fun k r hr hkept hleft => (hsame k).trans (h.present k r hr hkept hleft)⟩

theorem Kept.run (h : w.Kept most) {next : Watched} (hrun : Relation.ReflTransGen Step w next) :
    next.Kept most := by
  induction hrun with
  | refl => exact h
  | tail _ hstep ih => exact ih.step hstep

theorem kept_of_empty (hempty : state.table = ∅) (start : Instant) :
    Kept state.tableMaxEntries ⟨state, start, fun _ => none⟩ := by
  constructor
  · rfl
  · simp [hempty]
  · simp [hempty]
  · simp

theorem Kept.lookup_iff (h : w.Kept most) (hnow : w.clock ≤ now) (key : Bytes) (backendKey : Key) :
    (w.state.lookup now key).1 = some backendKey ↔ ∃ r, w.last key = some r ∧
      r.backendKey = backendKey ∧ now < r.expiresAt ∧ r.evicted = false := by
  constructor
  · intro hfound
    rw [LoadBalancerPersistenceState.lookup] at hfound
    cases hentry : w.state.table.lookup key with
    | none => simp [hentry] at hfound
    | some e =>
      simp only [hentry] at hfound
      split_ifs at hfound with hover
      exact ⟨_, h.recorded key e hentry, some.inj hfound, not_le.1 hover, rfl⟩
  · rintro ⟨r, hr, rfl, hleft, hkept⟩
    have hentry := h.present key r hr hkept (hnow.trans_lt hleft)
    simp [LoadBalancerPersistenceState.lookup, hentry, not_le.2 hleft]

end Watched

/-- After any sequence of records and lookups: the table is not larger than its bound, a lookup
finds the last record of the key if it has time left and was not evicted, and a record does what
`Recorded` says. -/
theorem persistence_table_refines_records {state : LoadBalancerPersistenceState}
    (hempty : state.table = ∅) {start : Instant} {w : Watched}
    (hrun : Relation.ReflTransGen Watched.Step ⟨state, start, fun _ => none⟩ w) :
    w.state.table.entries.length ≤ state.tableMaxEntries ∧
      (∀ now, w.clock ≤ now → ∀ key backendKey,
        (w.state.lookup now key).1 = some backendKey ↔ ∃ r, w.last key = some r ∧
          r.backendKey = backendKey ∧ now < r.expiresAt ∧ r.evicted = false) ∧
      ∀ now key backendKey,
        w.state.Recorded now key backendKey (w.state.record now key backendKey) := by
  have hkept := (Watched.kept_of_empty hempty start).run hrun
  exact ⟨hkept.configured ▸ hkept.bounded, fun now hnow => hkept.lookup_iff hnow,
    fun now key backendKey => recorded_record now key backendKey hkept.bounded⟩

/-- A table for one session that nobody uses yet. -/
def Watched.lone : Watched := ⟨⟨.sourceIp, none, none, 10, 1, none, ∅⟩, 0, fun _ => none⟩

/-- Two clients in a table for one of them: the second takes the place of the first. -/
theorem persistence_table_refines_records_evicting :
    ∃ w, Relation.ReflTransGen Watched.Step Watched.lone w ∧
      w.state.table.entries.length ≤ 1 ∧ (w.state.lookup 6 [2]).1 = some 8 ∧
      (w.state.lookup 6 [1]).1 ≠ some 7 := by
  have hfirst := Watched.Step.record (le_refl Watched.lone.clock) [1] 7
  have hlat : (Watched.lone.record 0 [1] 7).clock ≤ 5 := Nat.zero_le 5
  have hsecond := Watched.Step.record hlat [2] 8
  have hrun := (Relation.ReflTransGen.single hfirst).tail hsecond
  have h := persistence_table_refines_records rfl hrun
  refine ⟨_, hrun, h.1, (h.2.1 6 (by decide) [2] 8).2 ⟨_, rfl, by decide +kernel⟩, fun hfound => ?_⟩
  obtain ⟨r, hr, -, -, hkept⟩ := (h.2.1 6 (by decide) [1] 7).1 hfound
  obtain rfl := some.inj hr
  revert hkept
  decide +kernel

end Fluxheim.Balancer.LoadBalancerPersistenceState
