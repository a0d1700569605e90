import Fluxheim.Lib.Run
import Fluxheim.Lib.Table
import Mathlib.Data.List.Perm.Basic
import Mathlib.Order.Basic

/-!
# Sessions of a UDP route

A route counts its sessions, all of them and those of each source, and a slot gives back what was
counted for it when it is dropped.
-/

namespace Fluxheim.Server

open List AList

/-- The limits that can be reached. -/
inductive UdpAcquireError where
  | routeLimit
  | sourceLimit

/-- The caps of a route, 0 for none. -/
structure UdpCaps where
  maxSessions : ℕ
  maxSessionsPerSource : ℕ

variable {Source : Type} [DecidableEq Source]

/-- The counters of a route. -/
structure UdpCounters (Source : Type) where
  activeSessions : ℕ
  sourceSessions : AList fun _ : Source => ℕ

/-- What a slot has counted: a session of the route, and one of a source. -/
structure UdpSessionSlot (Source : Type) where
  routeCounter : Bool
  sourceCounter : Option Source

/-- A slot, if the limits allow it. -/
def acquireSessionSlot (caps : UdpCaps) (c : UdpCounters Source) (source : Source) :
    Except UdpAcquireError (UdpSessionSlot Source) × UdpCounters Source :=
  if caps.maxSessions ≠ 0 ∧ ¬ c.activeSessions < caps.maxSessions then (.error .routeLimit, c)
  else
    let routeCounter : Bool := caps.maxSessions ≠ 0
    let counted := if routeCounter then c.activeSessions + 1 else c.activeSessions
    if caps.maxSessionsPerSource = 0 then
      (.ok ⟨routeCounter, none⟩, { c with activeSessions := counted })
    else
      let current := (c.sourceSessions.lookup source).getD 0
      if current ≥ caps.maxSessionsPerSource then
        -- the session of the route is given back
        (.error .sourceLimit,
          { c with activeSessions := if routeCounter then counted - 1 else counted })
      else
        (.ok ⟨routeCounter, some source⟩,
          ⟨counted, c.sourceSessions.insert source (current + 1)⟩)

/-- One session less of a source. -/
def releaseSource (t : AList fun _ : Source => ℕ) (source : Source) : AList fun _ : Source => ℕ :=
  match t.lookup source with
  | some count => if count > 1 then t.insert source (count - 1) else t.erase source
  | none => t

/-- A slot is given back. -/
def UdpSessionSlot.drop (slot : UdpSessionSlot Source) (c : UdpCounters Source) :
    UdpCounters Source :=
  ⟨if slot.routeCounter then c.activeSessions - 1 else c.activeSessions,
    match slot.sourceCounter with
    | some source => releaseSource c.sourceSessions source
    | none => c.sourceSessions⟩

/-! ### Runs -/

/-- The counters of a route and its live slots, each with the source it was acquired for. -/
structure UdpWorld (Source : Type) where
  counters : UdpCounters Source
  live : List (Source × UdpSessionSlot Source)

/-- What happens to a route. -/
inductive UdpEvent (Source : Type) where
  | acquire (source : Source)
  | drop (index : ℕ)

/-- The route after an event. -/
def UdpWorld.step (caps : UdpCaps) (w : UdpWorld Source) : UdpEvent Source → UdpWorld Source
  | .acquire source =>
    match acquireSessionSlot caps w.counters source with
    | (.ok slot, c) => ⟨c, (source, slot) :: w.live⟩
    | (.error _, c) => { w with counters := c }
  | .drop index =>
    match w.live[index]? with
    | some held => ⟨held.2.drop w.counters, w.live.eraseIdx index⟩
    | none => w

/-- The live slots of a source. -/
def UdpWorld.liveOf (w : UdpWorld Source) (source : Source) : ℕ :=
  w.live.countP fun held => held.1 = source

/-- What a slot counts under the caps. -/
def UdpCaps.slotFor (caps : UdpCaps) (source : Source) : UdpSessionSlot Source :=
  ⟨caps.maxSessions ≠ 0, if caps.maxSessionsPerSource = 0 then none else some source⟩

/-- The counters are the numbers of live slots. -/
structure UdpWorld.Counted (caps : UdpCaps) (w : UdpWorld Source) : Prop where
  slots : ∀ held ∈ w.live, held.2 = caps.slotFor held.1
  active : caps.maxSessions ≠ 0 → w.counters.activeSessions = w.live.length
  active_le : caps.maxSessions ≠ 0 → w.live.length ≤ caps.maxSessions
  sources : caps.maxSessionsPerSource ≠ 0 → ∀ source, w.counters.sourceSessions.lookup source =
    if w.liveOf source = 0 then none else some (w.liveOf source)
  sources_le : caps.maxSessionsPerSource ≠ 0 → ∀ source,
    w.liveOf source ≤ caps.maxSessionsPerSource

variable {caps : UdpCaps} {c : UdpCounters Source} {w : UdpWorld Source}

/-- **An acquisition** is refused and changes nothing, or counts what its slot says. -/
theorem acquireSessionSlot_cases (source : Source) :
    (∃ e, acquireSessionSlot caps c source = (.error e, c)) ∨
    (caps.maxSessions ≠ 0 → c.activeSessions < caps.maxSessions) ∧
      (caps.maxSessionsPerSource ≠ 0 →
        (c.sourceSessions.lookup source).getD 0 < caps.maxSessionsPerSource) ∧
      acquireSessionSlot caps c source = (.ok (caps.slotFor source),
        ⟨if caps.maxSessions ≠ 0 then c.activeSessions + 1 else c.activeSessions,
          if caps.maxSessionsPerSource = 0 then c.sourceSessions
          else c.sourceSessions.insert source ((c.sourceSessions.lookup source).getD 0 + 1)⟩) := by
  unfold acquireSessionSlot UdpCaps.slotFor
  by_cases hfull : caps.maxSessions ≠ 0 ∧ ¬ c.activeSessions < caps.maxSessions
  · exact .inl ⟨_, if_pos hfull⟩
  have hroom : caps.maxSessions ≠ 0 → c.activeSessions < caps.maxSessions := by
    simpa using hfull
  rw [if_neg hfull]
  by_cases hsource : caps.maxSessionsPerSource = 0
  · right
    simpa [hsource] using hroom
  by_cases hmax : (c.sourceSessions.lookup source).getD 0 ≥ caps.maxSessionsPerSource
  · left
    by_cases hcap : caps.maxSessions = 0 <;> simp [hsource, hmax, hcap]
  · right
    simp only [hsource, hmax, if_false]
    exact ⟨hroom, fun _ => not_le.1 hmax, by simp⟩

namespace UdpWorld.Counted

theorem lookup_getD (h : w.Counted caps) (hsource : caps.maxSessionsPerSource ≠ 0)
    (source : Source) : (w.counters.sourceSessions.lookup source).getD 0 = w.liveOf source := by
  rw [h.sources hsource]
  split_ifs with hzero <;> simp [hzero]

theorem acquire (h : w.Counted caps) (source : Source) :
    (w.step caps (.acquire source)).Counted caps := by
  unfold step
  obtain ⟨e, heq⟩ | ⟨hact, hlt, heq⟩ := @acquireSessionSlot_cases Source _ caps w.counters source
  · simpa only [heq] using h
  simp only [heq]
  have hlive (s : Source) : liveOf ⟨w.counters, (source, caps.slotFor source) :: w.live⟩ s =
      w.liveOf s + if source = s then 1 else 0 := by
    simp [liveOf, countP_cons]
  constructor
  · exact forall_mem_cons.2 ⟨rfl, h.slots⟩
  · intro hcap
    simp [hcap, h.active hcap]
  · intro hcap
    have := h.active hcap
    simp only [length_cons]
    omega
  · intro hsource s
    rw [if_neg hsource, lookup_insert_ite, h.lookup_getD hsource, h.sources hsource]
    refine Eq.trans ?_ (congrArg (fun n => if n = 0 then none else some n) (hlive s).symm)
    by_cases hs : s = source
    · simp [hs]
    · simp [hs, Ne.symm hs]
  · intro hsource s
    have hle := h.sources_le hsource s
    have := hlt hsource
    rw [h.lookup_getD hsource] at this
    refine (hlive s).le.trans ?_
    split_ifs with hs
    · subst hs
      exact this
    · exact hle

theorem drop (h : w.Counted caps) {held : Source × UdpSessionSlot Source}
    {rest : List (Source × UdpSessionSlot Source)} (hp : w.live.Perm (held :: rest)) :
    UdpWorld.Counted caps ⟨held.2.drop w.counters, rest⟩ := by
  have hslot := h.slots held (hp.mem_iff.2 mem_cons_self)
  have hlen := hp.length_eq
  rw [length_cons] at hlen
  have hlive (s : Source) : w.liveOf s =
      liveOf ⟨w.counters, rest⟩ s + if held.1 = s then 1 else 0 := by
    simp [liveOf, hp.countP_eq, countP_cons]
  constructor
  · exact fun other hmem => h.slots other (hp.mem_iff.2 (mem_cons_of_mem _ hmem))
  · intro hcap
    have := h.active hcap
    simp only [UdpSessionSlot.drop, hslot, UdpCaps.slotFor, hcap, ne_eq, not_false_eq_true,
      decide_true, if_true]
    omega
  · intro hcap
    have := h.active_le hcap
    dsimp only
    omega
  · intro hsource s
    have hself := h.sources hsource held.1
    have hother := h.sources hsource s
    have hone := hlive held.1
    rw [if_pos rfl] at hone
    rw [if_neg (by omega)] at hself
    simp only [UdpSessionSlot.drop, hslot, UdpCaps.slotFor, hsource, if_false, releaseSource, hself]
    show _ = if liveOf ⟨w.counters, rest⟩ s = 0 then none else some (liveOf ⟨w.counters, rest⟩ s)
    rw [hlive s] at hother
    by_cases hs : s = held.1
    · subst hs
      split_ifs with hgt hzero hzero
      · omega
      · rw [lookup_insert]
        congr 1
        omega
      · exact lookup_erase held.1 _
      · omega
    · rw [if_neg (Ne.symm hs), Nat.add_zero] at hother
      split_ifs at hother ⊢ <;> simpa [lookup_insert_ne hs, lookup_erase_ne hs] using hother
  · intro hsource s
    have := h.sources_le hsource s
    have := hlive s
    show liveOf ⟨w.counters, rest⟩ s ≤ _
    omega

theorem step (h : w.Counted caps) (e : UdpEvent Source) : (w.step caps e).Counted caps := by
  cases e with
  | acquire source => exact h.acquire source
  | drop index =>
    cases hheld : w.live[index]? with
    | none => simpa only [UdpWorld.step, hheld] using h
    | some held =>
      obtain ⟨hlt, rfl⟩ := List.getElem?_eq_some_iff.1 hheld
      simpa only [UdpWorld.step, hheld] using h.drop (getElem_cons_eraseIdx_perm hlt).symm

end UdpWorld.Counted

/-- **The counters of a route.**  After any run, under each cap that is set, the counters of the
route and of a source are the numbers of their live slots, no more than the cap; a source without a
live slot has no entry; and a refused acquisition changes nothing. -/
theorem udp_sessions_counted (caps : UdpCaps) (events : List (UdpEvent Source)) :
    let w := events.foldl (UdpWorld.step caps) ⟨⟨0, ∅⟩, []⟩
    (caps.maxSessions ≠ 0 → w.counters.activeSessions = w.live.length ∧
      w.counters.activeSessions ≤ caps.maxSessions) ∧
    (caps.maxSessionsPerSource ≠ 0 → ∀ source,
      (w.counters.sourceSessions.lookup source).getD 0 = w.liveOf source ∧
      w.liveOf source ≤ caps.maxSessionsPerSource ∧
      (source ∈ w.counters.sourceSessions ↔ 0 < w.liveOf source)) ∧
    ∀ source e c, acquireSessionSlot caps w.counters source = (.error e, c) → c = w.counters := by
  intro w
  have h : w.Counted caps := Run.foldl_invariant (fun _ e h => h.step e)
    ⟨by simp, fun _ => rfl, fun _ => Nat.zero_le _, fun _ _ => rfl, fun _ _ => Nat.zero_le _⟩ events
  refine ⟨fun hcap => ⟨h.active hcap, (h.active hcap).trans_le (h.active_le hcap)⟩,
    fun hsource source => ⟨h.lookup_getD hsource source, h.sources_le hsource source, ?_⟩, ?_⟩
  · rw [← lookup_isSome, h.sources hsource]
    split_ifs with hzero
    · simp [hzero]
    · simpa using Nat.pos_of_ne_zero hzero
  · intro source e c heq
    obtain ⟨e', heq'⟩ | ⟨-, -, heq'⟩ := @acquireSessionSlot_cases Source _ caps w.counters source
    · exact congrArg Prod.snd (heq.symm.trans heq')
    · rw [heq'] at heq
      cases heq

/-- **A session is refused exactly if the live sessions of the route, or else of the source, have
reached their cap.** -/
theorem udp_session_refused_iff (caps : UdpCaps) (events : List (UdpEvent Source))
    (source : Source) :
    let w := events.foldl (UdpWorld.step caps) ⟨⟨0, ∅⟩, []⟩
    let routeFull := caps.maxSessions ≠ 0 ∧ w.live.length = caps.maxSessions
    ((acquireSessionSlot caps w.counters source).1 = .error .routeLimit ↔ routeFull) ∧
    ((acquireSessionSlot caps w.counters source).1 = .error .sourceLimit ↔ ¬ routeFull ∧
      caps.maxSessionsPerSource ≠ 0 ∧ w.liveOf source = caps.maxSessionsPerSource) := by
  intro w routeFull
  have h : w.Counted caps := Run.foldl_invariant (fun _ e h => h.step e)
    ⟨by simp, fun _ => rfl, fun _ => Nat.zero_le _, fun _ _ => rfl, fun _ _ => Nat.zero_le _⟩ events
  have hfull : (caps.maxSessions ≠ 0 ∧ ¬ w.counters.activeSessions < caps.maxSessions) ↔
      routeFull := by
    refine and_congr_right fun hcap => ?_
    have := h.active_le hcap
    rw [h.active hcap]
    omega
  rw [acquireSessionSlot]
  by_cases hsource : caps.maxSessionsPerSource = 0
  · split_ifs <;> simp_all
  · have := h.sources_le hsource source
    have hge : w.liveOf source ≥ caps.maxSessionsPerSource ↔
        w.liveOf source = caps.maxSessionsPerSource := by omega
    simp only [h.lookup_getD hsource, hge, hsource, if_false]
    split_ifs <;> simp_all

end Fluxheim.Server
