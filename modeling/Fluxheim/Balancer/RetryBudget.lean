import Mathlib.Data.List.Perm.Basic
import Fluxheim.Lib.Run
import Fluxheim.Balancer.Pool

/-!
# The budget of retries

A pool lets at most `limit` retries begin in a window of time.  A retry first reserves its place;
the reservation is committed when the retry is sent, and dropped, with the place given back, when it
is not.  Reservations know their window only by the instant it began at, and can outlive it.  The
times of the operations need not be in order.
-/

namespace Fluxheim.Balancer

open List

def MAX_RETRY_BUDGET_LIMIT : ℕ := 1000000
def MAX_RETRY_BUDGET_WINDOW : Duration := .fromSecs 3600

/-- The budget of the current window. -/
structure RetryBudget where
  limit : ℕ
  window : Duration
  started : Instant
  used : ℕ := 0
  admitted : ℕ := 0

/-- A place in the window that began at the instant; a committed one has no window any more. -/
structure RetryBudgetReservation where
  window : Option Instant

namespace RetryBudget

/-- A budget with a window that begins now. -/
def new (limit windowSecs : ℕ) (now : Instant) : RetryBudget where
  limit := limit
  window := .fromSecs windowSecs
  started := now

variable (budget : RetryBudget)

/-- Limits and windows that no reservation is given under. -/
def closed : Bool :=
  budget.limit == 0 || MAX_RETRY_BUDGET_LIMIT < budget.limit || budget.window == 0 ||
    MAX_RETRY_BUDGET_WINDOW < budget.window

/-- The window is over. -/
def expired (now : Instant) : Bool :=
  budget.window ≤ now - budget.started

/-- A new window, where the old one is over. -/
def rollOver (now : Instant) : RetryBudget :=
  if budget.expired now then { budget with started := now, used := 0 } else budget

/-- A place in the current window, if there is one. -/
def reserveAt (now : Instant) : Option RetryBudgetReservation × RetryBudget :=
  if budget.closed then (none, budget)
  else
    let budget := budget.rollOver now
    if budget.limit ≤ budget.used then (none, budget)
    else if 2 ^ 32 ≤ budget.used + 1 then (none, budget)
    else (some ⟨some budget.started⟩, { budget with used := budget.used + 1 })

/-- A reservation that is dropped gives its place back, if its window is still the current one. -/
def drop (budget : RetryBudget) (reservation : RetryBudgetReservation) : RetryBudget :=
  match reservation.window with
  | none => budget
  | some window =>
    if budget.started = window then { budget with used := budget.used - 1 } else budget

/-- A commit takes the window away, so that the drop at its end gives nothing back. -/
def commit (reservation : RetryBudgetReservation) : RetryBudget :=
  { budget with admitted := min (budget.admitted + 1) (2 ^ 64 - 1) }.drop
    { reservation with window := none }

end RetryBudget

/-- A reservation with the number of its window. -/
structure TakenReservation where
  reservation : RetryBudgetReservation
  epoch : ℕ

/-- A budget, the number of its current window, the reservations that are out, and the windows of
those that were committed. -/
structure RetryHistory where
  budget : RetryBudget
  epoch : ℕ := 0
  live : List TakenReservation := []
  committed : List ℕ := []

/-- The operations on a budget. -/
inductive RetryEvent where
  | reserve (now : Instant)
  | commit (i : ℕ)
  | drop (i : ℕ)

namespace RetryHistory

variable (s : RetryHistory)

/-- The reservations of a window that are out or committed. -/
def placesIn (epoch : ℕ) : ℕ :=
  s.live.countP (·.epoch = epoch) + s.committed.count epoch

/-- A reservation, with the window it was made in. -/
def afterReserve (now : Instant) : RetryHistory :=
  let epoch := if !s.budget.closed && s.budget.expired now then s.epoch + 1 else s.epoch
  match s.budget.reserveAt now with
  | (none, budget) => { s with budget := budget, epoch := epoch }
  | (some reservation, budget) =>
    { s with budget := budget, epoch := epoch, live := s.live ++ [⟨reservation, epoch⟩] }

/-- One operation.  A commit or a drop takes one of the reservations that are out. -/
def step : RetryEvent → RetryHistory
  | .reserve now => s.afterReserve now
  | .commit i =>
    match s.live[i]? with
    | none => s
    | some taken =>
      { s with
        budget := s.budget.commit taken.reservation
        live := s.live.eraseIdx i
        committed := taken.epoch :: s.committed }
  | .drop i =>
    match s.live[i]? with
    | none => s
    | some taken =>
      { s with
        budget := s.budget.drop taken.reservation
        live := s.live.eraseIdx i }

/-- What every history keeps: the instants tell the windows apart, the counter is right, and no
window has given out more places than the limit. -/
structure Counted (s : RetryHistory) : Prop where
  window : ∀ taken ∈ s.live, ∃ start, taken.reservation.window = some start ∧
    (taken.epoch = s.epoch ∧ start = s.budget.started ∨
      taken.epoch < s.epoch ∧ start < s.budget.started)
  past : ∀ epoch, s.epoch < epoch → s.placesIn epoch = 0
  used : s.budget.used = s.placesIn s.epoch
  bound : ∀ epoch, s.placesIn epoch ≤ s.budget.limit

variable {s}

theorem counted_new (limit windowSecs : ℕ) (now : Instant) :
    Counted { budget := .new limit windowSecs now } := by
  refine ⟨by simp, fun _ _ => rfl, rfl, fun _ => Nat.zero_le _⟩

/-- After the window is over the next one has the budget to itself. -/
theorem Counted.rollOver (h : s.Counted) (now : Instant) (hopen : s.budget.closed = false) :
    Counted { s with
      budget := s.budget.rollOver now
      epoch := if s.budget.expired now then s.epoch + 1 else s.epoch } := by
  rw [RetryBudget.rollOver]
  split_ifs with hexp
  · have hlat : s.budget.started < now := by
      simp only [RetryBudget.closed, Bool.or_eq_false_iff, beq_eq_false_iff_ne] at hopen
      have hwin := pos_of_ne_zero hopen.1.2
      have helapsed := of_decide_eq_true hexp
      exact Nat.lt_of_sub_pos (hwin.trans_le helapsed)
    refine ⟨fun taken htaken => ?_, fun epoch hepoch => h.past epoch (Nat.lt_of_succ_lt hepoch),
      (h.past _ (Nat.lt_succ_self _)).symm, h.bound⟩
    obtain ⟨start, hstart, ⟨hepoch, rfl⟩ | ⟨hepoch, hlt⟩⟩ := h.window taken htaken
    · exact ⟨_, hstart, Or.inr ⟨hepoch.trans_lt (Nat.lt_succ_self _), hlat⟩⟩
    · exact ⟨start, hstart, Or.inr ⟨Nat.lt_succ_of_lt hepoch, hlt.trans hlat⟩⟩
  · exact h

/-- A place in the current window is taken. -/
theorem Counted.take (h : s.Counted) (hroom : s.budget.used < s.budget.limit) :
    Counted { s with
      budget := { s.budget with used := s.budget.used + 1 }
      live := s.live ++ [⟨⟨some s.budget.started⟩, s.epoch⟩] } := by
  have hplaces : ∀ epoch, placesIn { s with
      budget := { s.budget with used := s.budget.used + 1 }
      live := s.live ++ [⟨⟨some s.budget.started⟩, s.epoch⟩] } epoch =
      s.placesIn epoch + if s.epoch = epoch then 1 else 0 := by
    intro epoch
    simp only [placesIn, countP_append, countP_singleton, decide_eq_true_eq]
    omega
  refine ⟨fun taken htaken => ?_, fun epoch hepoch => ?_, ?_, fun epoch => ?_⟩
  · rcases mem_append.1 htaken with htaken | htaken
    · exact h.window taken htaken
    · obtain rfl := mem_singleton.1 htaken
      exact ⟨_, rfl, Or.inl ⟨rfl, rfl⟩⟩
  · rw [hplaces, h.past epoch hepoch, if_neg hepoch.ne]
  · rw [hplaces, if_pos rfl, h.used]
  · rw [hplaces]
    split_ifs with heq
    · subst heq
      have := h.used
      dsimp only
      omega
    · exact h.bound epoch

theorem Counted.afterReserve (h : s.Counted) (now : Instant) : (s.afterReserve now).Counted := by
  rw [RetryHistory.afterReserve, RetryBudget.reserveAt]
  cases hopen : s.budget.closed with
  | true => exact h
  | false =>
    have hrolled := h.rollOver now hopen
    simp only [Bool.false_eq_true, if_false, Bool.not_false, Bool.true_and]
    generalize (if s.budget.expired now = true then s.epoch + 1 else s.epoch) = epoch at hrolled ⊢
    split_ifs with hroom hword
    · exact hrolled
    · exact hrolled
    · exact hrolled.take (not_le.1 hroom)

variable {taken : TakenReservation}

/-- The places of the windows without one of the reservations that are out. -/
theorem placesIn_eraseIdx {i : ℕ} (hi : s.live[i]? = some taken) (epoch : ℕ) : s.placesIn epoch =
      placesIn { s with live := s.live.eraseIdx i } epoch +
        if taken.epoch = epoch then 1 else 0 := by
  obtain ⟨hlt, rfl⟩ := List.getElem?_eq_some_iff.1 hi
  have hperm := (getElem_cons_eraseIdx_perm hlt).countP_eq (·.epoch = epoch)
  rw [placesIn, placesIn, ← hperm, countP_cons]
  simp only [decide_eq_true_eq]
  omega

/-- A drop gives a place back exactly if the reservation is of the current window. -/
theorem Counted.drop_used (h : s.Counted) (htaken : taken ∈ s.live) :
    s.budget.drop taken.reservation =
      if taken.epoch = s.epoch then { s.budget with used := s.budget.used - 1 }
      else s.budget := by
  obtain ⟨start, hstart, ⟨hepoch, rfl⟩ | ⟨hepoch, hlt⟩⟩ := h.window taken htaken
  · rw [RetryBudget.drop, hstart, if_pos hepoch]
    exact if_pos rfl
  · rw [RetryBudget.drop, hstart, if_neg hepoch.ne]
    exact if_neg hlt.ne'

theorem Counted.drop (h : s.Counted) {i : ℕ} (hi : s.live[i]? = some taken) :
    Counted { s with
      budget := s.budget.drop taken.reservation
      live := s.live.eraseIdx i } := by
  have hmem := mem_of_getElem? hi
  have hplaces := placesIn_eraseIdx hi
  have hlimit : (s.budget.drop taken.reservation).limit = s.budget.limit := by
    rw [h.drop_used hmem]
    split_ifs <;> rfl
  have hstart : (s.budget.drop taken.reservation).started = s.budget.started := by
    rw [h.drop_used hmem]
    split_ifs <;> rfl
  refine ⟨fun other hother => ?_, fun epoch hepoch => ?_, ?_, fun epoch => ?_⟩
  · rw [hstart]
    exact h.window other (mem_of_mem_eraseIdx hother)
  · have := hplaces epoch
    rw [h.past epoch hepoch] at this
    exact Nat.eq_zero_of_add_eq_zero_right this.symm
  · have hused := h.used
    rw [hplaces] at hused
    rw [h.drop_used hmem]
    split_ifs at hused ⊢ with hepoch
    · exact Nat.sub_eq_of_eq_add hused
    · exact hused
  · rw [hlimit]
    exact (Nat.le_add_right _ _).trans ((hplaces epoch).symm.trans_le (h.bound epoch))

theorem Counted.commit (h : s.Counted) {i : ℕ} (hi : s.live[i]? = some taken) :
    Counted { s with
      budget := s.budget.commit taken.reservation
      live := s.live.eraseIdx i
      committed := taken.epoch :: s.committed } := by
  -- the place is still taken, by a retry that has begun
  have hplaces : ∀ epoch, placesIn { s with
      budget := s.budget.commit taken.reservation
      live := s.live.eraseIdx i
      committed := taken.epoch :: s.committed } epoch = s.placesIn epoch := by
    intro epoch
    rw [placesIn_eraseIdx hi, placesIn, placesIn, count_cons, add_assoc]
    simp only [beq_iff_eq]
  refine ⟨fun other hother => ?_, fun epoch hepoch => ?_, ?_, fun epoch => ?_⟩
  · exact h.window other (mem_of_mem_eraseIdx hother)
  · rw [hplaces]
    exact h.past epoch hepoch
  · rw [hplaces]
    exact h.used
  · rw [hplaces]
    exact h.bound epoch

theorem Counted.step (h : s.Counted) (e : RetryEvent) : (s.step e).Counted := by
  cases e with
  | reserve now => exact h.afterReserve now
  | commit i =>
    rw [RetryHistory.step]
    split
    · exact h
    · rename_i taken hi
      exact h.commit hi
  | drop i =>
    rw [RetryHistory.step]
    split
    · exact h
    · rename_i taken hi
      exact h.drop hi

theorem step_limit (s : RetryHistory) (e : RetryEvent) :
    (s.step e).budget.limit = s.budget.limit := by
  cases e with
  | reserve now =>
    have hrolled : (s.budget.rollOver now).limit = s.budget.limit := by
      rw [RetryBudget.rollOver]
      split_ifs <;> rfl
    have hreserved : (s.budget.reserveAt now).2.limit = s.budget.limit := by
      rw [RetryBudget.reserveAt]
      dsimp only
      split_ifs
      · rfl
      all_goals exact hrolled
    rw [step, afterReserve]
    cases hcase : s.budget.reserveAt now with
    | mk reservation budget =>
      rw [hcase] at hreserved
      cases reservation <;> exact hreserved
  | commit i =>
    rw [step]
    split <;> rfl
  | drop i =>
    rw [step]
    split
    · rfl
    · rw [RetryBudget.drop]
      split
      · rfl
      · split_ifs <;> rfl

/-- **In every history of a budget the counter is the number of reservations of the current window
that are out or committed, and at most the limit; those of an earlier window do not change it; and
the commits of any one window are at most the limit.** -/
theorem retry_budget_counted (limit windowSecs : ℕ) (start : Instant) (events : List RetryEvent) :
    let s := events.foldl RetryHistory.step { budget := .new limit windowSecs start }
    s.budget.used = s.live.countP (·.epoch = s.epoch) + s.committed.count s.epoch ∧
    s.budget.used ≤ limit ∧
    (∀ i taken, s.live[i]? = some taken → taken.epoch < s.epoch →
      (s.step (.drop i)).budget.used = s.budget.used ∧
      (s.step (.commit i)).budget.used = s.budget.used) ∧
    ∀ epoch, s.committed.count epoch ≤ limit := by
  intro s
  have hs : s.Counted := Run.foldl_invariant (fun _ e h => h.step e)
    (counted_new limit windowSecs start) events
  have hlimit : s.budget.limit = limit :=
    Run.foldl_invariant (P := fun s : RetryHistory => s.budget.limit = limit)
      (fun s e h => (step_limit s e).trans h) rfl events
  refine ⟨hs.used, ?_, fun i taken hi hepoch => ?_, fun epoch => ?_⟩
  · rw [hs.used, ← hlimit]
    exact hs.bound _
  · simp only [step, hi]
    rw [hs.drop_used (mem_of_getElem? hi), if_neg hepoch.ne]
    exact ⟨rfl, rfl⟩
  · rw [← hlimit]
    exact (Nat.le_add_left _ _).trans (hs.bound epoch)

/-- Two windows of a second, with a reservation of the first one still out in the second. -/
def twoWindows : List RetryEvent :=
  [.reserve 0, .reserve 5, .commit 1, .reserve 2000000000]

theorem retry_budget_counted_twoWindows :
    let s := twoWindows.foldl RetryHistory.step { budget := .new 2 1 0 }
    s.budget.used = 1 ∧ (s.step (.drop 0)).budget.used = 1 := by
  have hused : (twoWindows.foldl step { budget := .new 2 1 0 }).budget.used = 1 := by
    decide +kernel
  refine ⟨hused, ?_⟩
  exact hused

end RetryHistory

end Fluxheim.Balancer
