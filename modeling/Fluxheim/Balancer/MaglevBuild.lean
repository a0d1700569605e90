import Mathlib.Data.ZMod.Basic
import Mathlib.Tactic.NormNum.Prime
import Fluxheim.Balancer.SelectionRing

/-!
# Filling the Maglev table

The backends take turns.  At its turn a backend takes the first free slot in an order of its own,
which goes through the table with a stride, from where it stopped at its last turn.  The size of the
table is prime, so every stride comes by every slot: the loops end, and the shares differ by at most
one.
-/

namespace Fluxheim.Balancer

open List

/-- The mark of a free slot. -/
def EMPTY_SLOT : Key := 0xffffffffffffffff

/-- The slot at a step of a stride. -/
def maglevCandidate (offset next skip : ℕ) : ℕ := (offset + next * skip) % MAGLEV_TABLE_SIZE

/-- Where a backend starts, and its stride. -/
def maglevPermutation (key : Key) : ℕ × ℕ :=
  ((fnv1a64WithSeed (toLeBytes key) FNV_OFFSET_BASIS).toNat % MAGLEV_TABLE_SIZE,
    (fnv1a64WithSeed (toLeBytes key) 0x84222325cbf29ce4).toNat % (MAGLEV_TABLE_SIZE - 1) + 1)

/-- The slots so far, how far each backend has come in its order, and the number of slots taken. -/
structure MaglevFill where
  slots : List Key
  next : ℕ → ℕ
  filled : ℕ
  size : slots.length = MAGLEV_TABLE_SIZE

namespace MaglevFill

/-- The empty table. -/
def start : MaglevFill where
  slots := List.replicate MAGLEV_TABLE_SIZE EMPTY_SLOT
  next := fun _ => 0
  filled := 0
  size := length_replicate

/-- The slot a backend looks at next. -/
def candidate (fill : MaglevFill) (index : ℕ) (key : Key) : ℕ :=
  maglevCandidate (maglevPermutation key).1 (fill.next index) (maglevPermutation key).2

/-- The backend has looked at its candidate. -/
def advance (fill : MaglevFill) (index : ℕ) : MaglevFill :=
  { fill with next := Function.update fill.next index (min USIZE_MAX (fill.next index + 1)) }

/-- A slot is given to a backend. -/
def take (fill : MaglevFill) (slot : ℕ) (key : Key) : MaglevFill where
  slots := fill.slots.set slot key
  next := fill.next
  filled := min USIZE_MAX (fill.filled + 1)
  size := length_set.trans fill.size

/-- One turn of a backend. -/
def probeLoop (index : ℕ) (key : Key) : ℕ → MaglevFill → Option MaglevFill
  | 0, _ => none
  | steps + 1, fill =>
    let slot := fill.candidate index key
    if fill.slots[slot]? = some EMPTY_SLOT then some ((fill.advance index).take slot key)
    else probeLoop index key steps (fill.advance index)

/-- The turns of a round, until the table is full. -/
def turns (steps : ℕ) : List (Key × ℕ) → MaglevFill → Option MaglevFill
  | [], fill => some fill
  | (key, index) :: rest, fill =>
    match probeLoop index key steps fill with
    | none => none
    | some fill => if fill.filled = MAGLEV_TABLE_SIZE then some fill else turns steps rest fill

/-- Round after round, while the table is not full. -/
def rounds (steps : ℕ) (keys : List Key) : ℕ → MaglevFill → Option MaglevFill
  | 0, _ => none
  | more + 1, fill =>
    if fill.filled < MAGLEV_TABLE_SIZE then
      match turns steps keys.zipIdx fill with
      | none => none
      | some fill => rounds steps keys more fill
    else some fill

end MaglevFill

/-- The table of the backends, by loops that are given a number of steps each. -/
def MaglevTable.fromBackendKeys (steps : ℕ) (keys : List Key) :
    Except String (Option MaglevTable) :=
  if keys.isEmpty then .error "maglev requires at least one backend"
  else
    .ok ((MaglevFill.start.rounds steps keys steps).map fun fill => ⟨fill.slots, fill.size⟩)

/-- A stride through a table of prime size comes by every slot. -/
theorem exists_stride {p off skip slot : ℕ} (hp : p.Prime) (hskip : ¬ p ∣ skip)
    (hslot : slot < p) : ∃ n < p, (off + n * skip) % p = slot := by
  have : Fact p.Prime := ⟨hp⟩
  have hne : (skip : ZMod p) ≠ 0 := by rwa [Ne, ZMod.natCast_eq_zero_iff]
  refine ⟨((slot - off : ZMod p) / skip).val, ZMod.val_lt _, ?_⟩
  have hcast : ((off + ((slot - off : ZMod p) / skip).val * skip : ℕ) : ZMod p) =
      (slot : ZMod p) := by
    push_cast
    rw [ZMod.natCast_val, ZMod.cast_id, div_mul_cancel₀ _ hne]
    ring
  rw [ZMod.natCast_eq_natCast_iff'] at hcast
  rw [hcast, Nat.mod_eq_of_lt hslot]

theorem prime_MAGLEV_TABLE_SIZE : MAGLEV_TABLE_SIZE.Prime := by
  unfold MAGLEV_TABLE_SIZE
  norm_num

theorem exists_candidate (key : Key) {slot : ℕ} (h : slot < MAGLEV_TABLE_SIZE) :
    ∃ n < MAGLEV_TABLE_SIZE,
      maglevCandidate (maglevPermutation key).1 n (maglevPermutation key).2 = slot := by
  refine exists_stride prime_MAGLEV_TABLE_SIZE ?_ h
  -- a stride is at least one and less than the size
  have hlt : (maglevPermutation key).2 < MAGLEV_TABLE_SIZE := by
    have := Nat.mod_lt (fnv1a64WithSeed (toLeBytes key) 0x84222325cbf29ce4).toNat
      (show 0 < MAGLEV_TABLE_SIZE - 1 by decide)
    simp only [maglevPermutation, MAGLEV_TABLE_SIZE] at this ⊢
    omega
  exact Nat.not_dvd_of_pos_of_lt (Nat.succ_pos _) hlt

namespace MaglevFill

/-- The slots taken are counted and belong to backends, and no slot that a backend has looked at is
free. -/
structure Filling (keys : List Key) (fill : MaglevFill) : Prop where
  counted : fill.filled + fill.slots.count EMPTY_SLOT = MAGLEV_TABLE_SIZE
  owned : ∀ slot ∈ fill.slots, slot = EMPTY_SLOT ∨ slot ∈ keys
  tried : ∀ index key, keys[index]? = some key → ∀ n < fill.next index,
    fill.slots[maglevCandidate (maglevPermutation key).1 n (maglevPermutation key).2]? ≠
      some EMPTY_SLOT

/-- One slot more is taken, by the backend with the key. -/
structure Took (key : Key) (fill fill' : MaglevFill) : Prop where
  filled : fill'.filled = fill.filled + 1
  count : ∀ k, k ≠ EMPTY_SLOT →
    fill'.slots.count k = fill.slots.count k + if k = key then 1 else 0

variable {keys : List Key} {fill : MaglevFill} {index : ℕ} {key : Key}

theorem filling_start (keys : List Key) : Filling keys start where
  counted := by
    -- the slots are rewritten first, as the sum is not to be computed
    rw [show start.slots = replicate MAGLEV_TABLE_SIZE EMPTY_SLOT from rfl, count_replicate_self]
    exact zero_add _
  owned slot hslot := Or.inl (eq_of_mem_replicate hslot)
  tried _ _ _ n hn := absurd hn (Nat.not_lt_zero n)

/-- While there is a free slot, every backend has one still ahead. -/
theorem Filling.exists_free (h : Filling keys fill) (hkey : keys[index]? = some key)
    (hroom : fill.filled < MAGLEV_TABLE_SIZE) :
    ∃ n, fill.next index ≤ n ∧ n < MAGLEV_TABLE_SIZE ∧
      fill.slots[maglevCandidate (maglevPermutation key).1 n (maglevPermutation key).2]? =
        some EMPTY_SLOT := by
  have hfree : EMPTY_SLOT ∈ fill.slots := by
    have := h.counted
    exact count_pos_iff.1 (by omega)
  obtain ⟨slot, hslot, heq⟩ := mem_iff_getElem.1 hfree
  obtain ⟨n, hn, hcand⟩ := exists_candidate key (fill.size ▸ hslot)
  have hget : fill.slots[maglevCandidate (maglevPermutation key).1 n
      (maglevPermutation key).2]? = some EMPTY_SLOT := by
    rw [hcand, getElem?_eq_getElem hslot, heq]
  refine ⟨n, not_lt.1 fun hlt => ?_, hn, hget⟩
  exact h.tried index key hkey n hlt hget

theorem advance_next (hn : fill.next index < MAGLEV_TABLE_SIZE) :
    (fill.advance index).next = Function.update fill.next index (fill.next index + 1) := by
  have : MAGLEV_TABLE_SIZE ≤ USIZE_MAX := by decide
  rw [advance, min_eq_right (by omega)]

/-- Slots looked at, with the one that was just looked at. -/
theorem tried_advance (hkey : keys[index]? = some key) {slots : List Key} {next : ℕ → ℕ}
    (htri : ∀ i k, keys[i]? = some k → ∀ n < next i,
      slots[maglevCandidate (maglevPermutation k).1 n (maglevPermutation k).2]? ≠ some EMPTY_SLOT)
    (hnow : slots[maglevCandidate (maglevPermutation key).1 (next index)
      (maglevPermutation key).2]? ≠ some EMPTY_SLOT) :
    ∀ i k, keys[i]? = some k → ∀ n < Function.update next index (next index + 1) i,
      slots[maglevCandidate (maglevPermutation k).1 n (maglevPermutation k).2]? ≠
        some EMPTY_SLOT := by
  intro i k hk n hn
  by_cases hi : i = index
  · subst hi
    obtain rfl : key = k := Option.some.inj (hkey.symm.trans hk)
    rw [Function.update_self] at hn
    rcases Nat.lt_succ_iff_lt_or_eq.1 hn with hn | rfl
    · exact htri i key hk n hn
    · exact hnow
  · rw [Function.update_of_ne hi] at hn
    exact htri i k hk n hn

theorem Filling.advance (h : Filling keys fill) (hkey : keys[index]? = some key)
    (hn : fill.next index < MAGLEV_TABLE_SIZE)
    (htaken : fill.slots[fill.candidate index key]? ≠ some EMPTY_SLOT) :
    Filling keys (fill.advance index) where
  counted := h.counted
  owned := h.owned
  tried := by
    rw [advance_next hn]
    exact tried_advance hkey h.tried htaken

theorem Filling.take (h : Filling keys fill) (hkey : keys[index]? = some key)
    (hne : key ≠ EMPTY_SLOT) (hn : fill.next index < MAGLEV_TABLE_SIZE)
    (hfree : fill.slots[fill.candidate index key]? = some EMPTY_SLOT) :
    Filling keys ((fill.advance index).take (fill.candidate index key) key) ∧
      Took key fill ((fill.advance index).take (fill.candidate index key) key) := by
  obtain ⟨hlt, hget⟩ := List.getElem?_eq_some_iff.1 hfree
  have hmem : EMPTY_SLOT ∈ fill.slots := mem_of_getElem? hfree
  have hpos : 0 < fill.slots.count EMPTY_SLOT := count_pos_iff.2 hmem
  have hfilled : ((fill.advance index).take (fill.candidate index key) key).filled =
      fill.filled + 1 := by
    have : MAGLEV_TABLE_SIZE ≤ USIZE_MAX := by decide
    have := h.counted
    exact min_eq_right (by omega : fill.filled + 1 ≤ USIZE_MAX)
  have hcount : ∀ k, ((fill.advance index).take (fill.candidate index key) key).slots.count k =
      (fill.slots.count k - if EMPTY_SLOT = k then 1 else 0) + if key = k then 1 else 0 := by
    intro k
    refine (count_set hlt).trans ?_
    simp only [hget, beq_iff_eq]
  refine ⟨⟨?_, ?_, ?_⟩, ⟨hfilled, ?_⟩⟩
  · have := h.counted
    rw [hcount, if_pos rfl, if_neg hne]
    omega
  · intro slot hslot
    rcases mem_or_eq_of_mem_set hslot with hslot | rfl
    · exact h.owned slot hslot
    · exact Or.inr (mem_of_getElem? hkey)
  · show ∀ i k, keys[i]? = some k → ∀ n < (fill.advance index).next i, _
    rw [advance_next hn]
    -- a slot that is taken stays so
    have hset : ∀ j : ℕ, fill.slots[j]? ≠ some EMPTY_SLOT →
        (fill.slots.set (fill.candidate index key) key)[j]? ≠ some EMPTY_SLOT := by
      intro j hj
      rw [getElem?_set]
      split_ifs
      · exact fun heq => hne (Option.some.inj heq)
      · exact hj
    refine tried_advance hkey (fun i k hk n hlt' => hset _ (h.tried i k hk n hlt')) ?_
    refine fun heq => hne ?_
    have hself : (fill.slots.set (fill.candidate index key) key)[fill.candidate index key]? =
        some key := by rw [getElem?_set_self hlt]
    exact Option.some.inj (hself.symm.trans heq)
  · intro k hk
    rw [hcount, if_neg (Ne.symm hk)]
    simp [eq_comm]

/-! ### What the loops do -/

variable {steps steps' : ℕ}

/-- The loop finds the free slot ahead, if it has a step for each candidate up to it. -/
theorem probeLoop_spec (h : Filling keys fill) (hkey : keys[index]? = some key)
    (hne : key ≠ EMPTY_SLOT) {n : ℕ} (hle : fill.next index ≤ n) (hn : n < MAGLEV_TABLE_SIZE)
    (hfree : fill.slots[maglevCandidate (maglevPermutation key).1 n (maglevPermutation key).2]? =
      some EMPTY_SLOT) (hstep : n < fill.next index + steps) :
    ∃ fill', probeLoop index key steps fill = some fill' ∧ Filling keys fill' ∧
      Took key fill fill' := by
  induction steps generalizing fill with
  | zero => omega
  | succ steps ih =>
    have hnext := lt_of_le_of_lt hle hn
    rw [probeLoop]
    by_cases hcand : fill.slots[fill.candidate index key]? = some EMPTY_SLOT
    · rw [if_pos hcand]
      exact ⟨_, rfl, h.take hkey hne hnext hcand⟩
    · rw [if_neg hcand]
      have hlt : fill.next index < n :=
        lt_of_le_of_ne hle fun heq => hcand (by rw [candidate, heq]; exact hfree)
      have hadv : (fill.advance index).next index = fill.next index + 1 := by
        rw [advance_next hnext, Function.update_self]
      obtain ⟨fill', hloop, hfill, htook⟩ := ih (h.advance hkey hnext hcand)
        (by omega) hfree (by omega)
      exact ⟨fill', hloop, hfill, htook.filled, htook.count⟩

variable {fill' : MaglevFill} {round : ℕ}

/-- A turn of a backend takes one slot, while there is one. -/
theorem turn_spec (h : Filling keys fill) (hkey : keys[index]? = some key)
    (hne : key ≠ EMPTY_SLOT) (hroom : fill.filled < MAGLEV_TABLE_SIZE)
    (hstep : MAGLEV_TABLE_SIZE ≤ steps) :
    ∃ fill', probeLoop index key steps fill = some fill' ∧ Filling keys fill' ∧
      Took key fill fill' := by
  obtain ⟨n, hle, hn, hfree⟩ := h.exists_free hkey hroom
  exact probeLoop_spec h hkey hne hle hn hfree (by omega)

/-- In a round every backend that has had its turn has one slot more than those that have not. -/
def Shared (keys waiting : List Key) (round : ℕ) (fill : MaglevFill) : Prop :=
  ∀ k ∈ keys, fill.slots.count k = if k ∈ waiting then round else round + 1

theorem turns_spec (hempty : EMPTY_SLOT ∉ keys) (hstep : MAGLEV_TABLE_SIZE ≤ steps)
    (wait : List (Key × ℕ)) (hwait : ∀ e ∈ wait, keys[e.2]? = some e.1)
    (hnod : (wait.map Prod.fst).Nodup) (h : Filling keys fill)
    (hroom : fill.filled < MAGLEV_TABLE_SIZE)
    (hshared : Shared keys (wait.map Prod.fst) round fill) :
    ∃ fill' left, turns steps wait fill = some fill' ∧ Filling keys fill' ∧
      (wait ≠ [] → fill.filled < fill'.filled) ∧
      (left = [] ∨ fill'.filled = MAGLEV_TABLE_SIZE) ∧ Shared keys left round fill' := by
  induction wait generalizing fill with
  | nil => exact ⟨fill, [], rfl, h, absurd rfl, Or.inl rfl, hshared⟩
  | cons e rest ih =>
    obtain ⟨key, index⟩ := e
    have hkey : keys[index]? = some key := hwait (key, index) mem_cons_self
    have hmem : key ∈ keys := mem_of_getElem? hkey
    obtain ⟨hfresh, hnod⟩ := nodup_cons.1 hnod
    obtain ⟨fill', hloop, hfill, htook⟩ := turn_spec h hkey
      (fun heq => hempty (heq ▸ hmem)) hroom hstep
    have hshared' : Shared keys (rest.map Prod.fst) round fill' := by
      intro k hk
      rw [htook.count k (fun heq => hempty (heq ▸ hk)), hshared k hk, map_cons]
      by_cases heq : k = key
      · subst heq
        rw [if_pos mem_cons_self, if_pos rfl, if_neg hfresh]
      · simp only [mem_cons, heq, false_or, if_false, add_zero]
    have hle : fill'.filled ≤ MAGLEV_TABLE_SIZE := by
      have := hfill.counted
      omega
    have hmore := htook.filled
    rw [turns, hloop]
    dsimp only
    split_ifs with hfull
    · exact ⟨fill', _, rfl, hfill, fun _ => by omega, Or.inr hfull, hshared'⟩
    · obtain ⟨last, left, hturn, hlast, hgrow, hdone, hend⟩ := ih
        (fun e he => hwait e (mem_cons_of_mem _ he)) hnod hfill
        (lt_of_le_of_ne hle hfull) hshared'
      refine ⟨last, left, hturn, hlast, fun _ => ?_, hdone, hend⟩
      by_cases hrest : rest = []
      · subst hrest
        obtain rfl : fill' = last := Option.some.inj hturn
        omega
      · have := hgrow hrest
        omega

theorem Shared.next (h : Shared keys [] round fill) : Shared keys keys (round + 1) fill := by
  intro k hk
  rw [h k hk, if_pos hk, if_neg not_mem_nil]

/-- At the end of the rounds the table is full, and the shares are those of the last round. -/
theorem rounds_spec (hne : keys ≠ []) (hnod : keys.Nodup) (hempty : EMPTY_SLOT ∉ keys)
    (hstep : MAGLEV_TABLE_SIZE ≤ steps) (more : ℕ) (h : Filling keys fill)
    (hmore : MAGLEV_TABLE_SIZE < fill.filled + more) {left : List Key}
    (hdone : left = keys ∨ fill.filled = MAGLEV_TABLE_SIZE)
    (hshared : Shared keys left round fill) :
    ∃ fill' left round, rounds steps keys more fill = some fill' ∧ Filling keys fill' ∧
      fill'.filled = MAGLEV_TABLE_SIZE ∧ Shared keys left round fill' := by
  induction more generalizing fill left round with
  | zero =>
    have := h.counted
    omega
  | succ more ih =>
    have hle : fill.filled ≤ MAGLEV_TABLE_SIZE := by
      have := h.counted
      omega
    rw [rounds]
    split_ifs with hroom
    · obtain rfl := hdone.resolve_right hroom.ne
      obtain ⟨fill', left', hturn, hfill, hgrow, hdone', hshared'⟩ := turns_spec hempty hstep
        left.zipIdx (fun e he => mk_mem_zipIdx_iff_getElem?.1 he)
        (by rwa [zipIdx_map_fst]) h hroom (by rwa [zipIdx_map_fst])
      have hmore' := hgrow (by simpa using hne)
      rw [hturn]
      -- a round that nobody is left over from is followed by the next
      rcases hdone' with rfl | hfull
      · exact ih hfill (by omega) (Or.inl rfl) hshared'.next
      · exact ih hfill (by omega) (Or.inr hfull) hshared'
    · exact ⟨fill, left, round, rfl, h, by omega, hshared⟩

theorem probeLoop_mono (hle : steps ≤ steps') (h : probeLoop index key steps fill = some fill') :
    probeLoop index key steps' fill = some fill' := by
  induction steps generalizing fill steps' with
  | zero => exact absurd h (by simp [probeLoop])
  | succ steps ih =>
    obtain ⟨steps', rfl⟩ := Nat.exists_eq_add_of_lt (Nat.lt_of_succ_le hle)
    rw [probeLoop] at h ⊢
    split_ifs at h ⊢
    · exact h
    · exact ih (by omega) h

theorem turns_mono (hle : steps ≤ steps') {wait : List (Key × ℕ)}
    (h : turns steps wait fill = some fill') : turns steps' wait fill = some fill' := by
  induction wait generalizing fill with
  | nil => exact h
  | cons e rest ih =>
    rw [turns] at h ⊢
    cases hloop : probeLoop e.2 e.1 steps fill with
    | none => simp [hloop] at h
    | some next =>
      rw [hloop] at h
      rw [probeLoop_mono hle hloop]
      dsimp only at h ⊢
      split_ifs at h ⊢
      · exact h
      · exact ih h

theorem rounds_mono {more more' : ℕ} (hle : steps ≤ steps') (hmore : more ≤ more')
    (h : rounds steps keys more fill = some fill') :
    rounds steps' keys more' fill = some fill' := by
  induction more generalizing fill more' with
  | zero => exact absurd h (by simp [rounds])
  | succ more ih =>
    obtain ⟨more', rfl⟩ := Nat.exists_eq_add_of_lt (Nat.lt_of_succ_le hmore)
    rw [rounds] at h ⊢
    split_ifs at h ⊢
    · cases hturn : turns steps keys.zipIdx fill with
      | none => simp [hturn] at h
      | some next =>
        rw [hturn] at h
        rw [turns_mono hle hturn]
        exact ih (by omega) h
    · exact h

end MaglevFill

/-- **The loops end, every slot belongs to a backend, and the shares of two backends differ by at
most one.**  More steps than the table has slots do not change the table. -/
theorem maglev_table_balanced (keys : List Key) (hne : keys ≠ []) (hnodup : keys.Nodup)
    (hempty : EMPTY_SLOT ∉ keys) :
    ∃ table : MaglevTable,
      (∀ steps > MAGLEV_TABLE_SIZE, MaglevTable.fromBackendKeys steps keys = .ok (some table)) ∧
      (∀ slot ∈ table.slots, slot ∈ keys) ∧
      ∀ a ∈ keys, ∀ b ∈ keys, table.slots.count a ≤ table.slots.count b + 1 := by
  have hstart : MaglevFill.Shared keys keys 0 MaglevFill.start := by
    intro k hk
    rw [if_pos hk]
    refine count_eq_zero.2 fun hmem => hempty ?_
    exact eq_of_mem_replicate hmem ▸ hk
  obtain ⟨fill, left, round, hround, hfill, hfull, hshared⟩ := MaglevFill.rounds_spec hne hnodup
    hempty le_rfl (MAGLEV_TABLE_SIZE + 1) (MaglevFill.filling_start keys)
    (by simp [MaglevFill.start]) (Or.inl rfl) hstart
  refine ⟨⟨fill.slots, fill.size⟩, fun steps hstep => ?_, fun slot hslot => ?_, ?_⟩
  · rw [MaglevTable.fromBackendKeys, if_neg (by simpa using hne),
      MaglevFill.rounds_mono hstep.le hstep hround]
    rfl
  · have hnone : fill.slots.count EMPTY_SLOT = 0 := by
      have := hfill.counted
      omega
    refine (hfill.owned slot hslot).resolve_left ?_
    rintro rfl
    exact count_eq_zero.1 hnone hslot
  · intro a ha b hb
    rw [hshared a ha, hshared b hb]
    split_ifs <;> omega

theorem maglev_table_balanced_pair :
    ∃ table : MaglevTable,
      (∀ steps > MAGLEV_TABLE_SIZE, MaglevTable.fromBackendKeys steps [1, 2] = .ok (some table)) ∧
      (∀ slot ∈ table.slots, slot ∈ [1, 2]) ∧
      ∀ a ∈ [1, 2], ∀ b ∈ [1, 2], table.slots.count a ≤ table.slots.count b + 1 :=
  maglev_table_balanced [1, 2] (by decide) (by decide) (by decide)

end Fluxheim.Balancer
