import Fluxheim.Lib.Run
import Mathlib.Tactic

/-!
# A lane of operational events

Emitters and permits send events over a bounded channel to one worker, and the worker counts what
became of each.  A call is a sequence of steps on the shared counters and the channel, so a lane is
a state machine over the number of calls that stand at each point.
-/

namespace Fluxheim.Observability

/-- The capacity of a channel, and the number of audit slots. -/
def QUEUE_CAPACITY : ℕ := 128

/-- A point between two steps of a call, or a permit that is held. -/
inductive Point where
  /-- `emit_at` after its checks. -/
  | admitted
  /-- `emit_at` with an audit slot. -/
  | slotted
  /-- `emit_at` after the event was sent. -/
  | sent
  /-- `emit_at` after the event was refused. -/
  | refused
  /-- `try_reserve_audit_at` after its checks. -/
  | reserving
  /-- A permit, before its commit or its drop. -/
  | permit
  /-- `commit` after its checks. -/
  | committing
  /-- `commit` after the event was sent. -/
  | committed
  /-- A permit that is not committed any more. -/
  | dropping
  deriving DecidableEq

/-- A point of `writer_loop`. -/
inductive Worker where
  | receiving
  | timedOut
  | processing
  /-- The event is completed, its slot is not yet given back. -/
  | completed (written : Bool)
  | returned (written : Bool)
  | failed
  | draining
  /-- An event is taken from the channel, its slot is not yet given back. -/
  | drained
  | discarding
  | discarded
  /-- The loop is left. -/
  | leaving
  /-- `alive` is false, and the channel still open. -/
  | closing
  | stopped
  deriving DecidableEq

/-- The event that the worker has taken, while it has not given the slot back. -/
@[simp]
def Worker.inProcess : Worker → ℕ
  | .processing | .completed _ | .drained => 1
  | _ => 0

/-- The event that the worker has taken, while its end is not counted. -/
@[simp]
def Worker.uncounted : Worker → ℕ
  | .processing | .completed _ | .returned _ | .drained | .discarding => 1
  | _ => 0

/-- The event whose end is counted, while it is not yet completed. -/
@[simp]
def Worker.behind : Worker → ℕ
  | .discarded => 1
  | _ => 0

/-- The event that is completed, while its end is not counted. -/
@[simp]
def Worker.ahead : Worker → ℕ
  | .completed _ | .returned _ => 1
  | _ => 0

/-- The worker has looked at the channel and does not look at it again, unless it goes back to
receiving. -/
def Worker.looked : Worker → Bool
  | .timedOut | .leaving | .closing | .stopped => true
  | _ => false

/-- The counters of one class of events and its channel.  Those of the source saturate at the end of
`u64`, so the runs are those with fewer than `2 ^ 64` events. -/
structure Lane where
  /-- The events of the lane are audit events. -/
  audit : Bool
  auditSlots : ℕ
  queue : ℕ
  accepted : ℕ
  written : ℕ
  sinkErrors : ℕ
  discarded : ℕ
  completed : ℕ
  alive : Bool
  closing : Bool
  /-- How many calls stand at a point. -/
  calls : Point → ℕ
  worker : Worker
  /-- The events in the channel when it was closed. -/
  lost : ℕ

namespace Lane

/-- A lane as `Dispatcher::new` makes it. -/
def new (audit : Bool) : Lane :=
  ⟨audit, QUEUE_CAPACITY, 0, 0, 0, 0, 0, 0, true, false, fun _ => 0, .receiving, 0⟩

/-- A call reaches a point. -/
def enter (p : Point) (s : Lane) : Lane :=
  { s with calls := fun q => if q = p then s.calls q + 1 else s.calls q }

/-- A call leaves a point. -/
def leave (p : Point) (s : Lane) : Lane :=
  { s with calls := fun q => if q = p then s.calls q - 1 else s.calls q }

variable (s : Lane)

/-- The slot of an audit event is given back. -/
def giveBack : Lane :=
  { s with auditSlots := if s.audit then s.auditSlots + 1 else s.auditSlots }

/-- The answer of the channel to an event. -/
inductive SendResult where
  | ok
  | full
  | disconnected
  deriving DecidableEq

/-- `try_send`: the channel is open until the worker has stopped. -/
def trySend : SendResult :=
  if s.worker = .stopped then .disconnected
  else if s.queue < QUEUE_CAPACITY then .ok
  else .full

/-- A call at a point sends its event and goes on to one of two points. -/
def send (p done failed : Point) (s : Lane) : Lane :=
  if s.trySend = .ok then ({ s with queue := s.queue + 1 }.leave p).enter done
  else (s.leave p).enter failed

/-- The next step of the worker; `ok` is the answer of the sink. -/
def workerStep (ok : Bool) (s : Lane) : Lane :=
  match s.worker with
  | .receiving =>
    if 0 < s.queue then { s with queue := s.queue - 1, worker := .processing }
    else { s with worker := .timedOut }
  | .timedOut => { s with worker := if s.closing then .leaving else .receiving }
  | .processing => { s with completed := s.completed + 1, worker := .completed ok }
  | .completed written => { s.giveBack with worker := .returned written }
  | .returned true => { s with written := s.written + 1, worker := .receiving }
  | .returned false => { s with sinkErrors := s.sinkErrors + 1, worker := .failed }
  | .failed => { s with alive := false, worker := .draining }
  | .draining =>
    if 0 < s.queue then { s with queue := s.queue - 1, worker := .drained }
    else { s with worker := .leaving }
  | .drained => { s.giveBack with worker := .discarding }
  | .discarding => { s with discarded := s.discarded + 1, worker := .discarded }
  | .discarded => { s with completed := s.completed + 1, worker := .draining }
  | .leaving => { s with alive := false, worker := .closing }
  | .closing => { s with lost := s.queue, queue := 0, worker := .stopped }
  | .stopped => s

/-- What may happen next. -/
inductive Step where
  /-- `shutdown`, or the drop of the dispatcher. -/
  | shutdown
  /-- The worker goes on; `ok` is the answer of the sink. -/
  | worker (ok : Bool)
  | emit
  | reserve
  /-- The permit is dropped without a commit. -/
  | drop
  | commit
  /-- The call at a point goes on. -/
  | go (p : Point)

/-- What a step does. -/
def step (s : Lane) : Step → Lane
  | .shutdown => { s with closing := true }
  | .worker ok => s.workerStep ok
  -- a flag that changes does not change back, so the two checks are one step
  | .emit => if s.alive ∧ ¬ s.closing then s.enter .admitted else s
  | .reserve => if s.audit ∧ s.alive ∧ ¬ s.closing then s.enter .reserving else s
  | .drop => if 0 < s.calls .permit then (s.leave .permit).enter .dropping else s
  | .commit =>
    if 0 < s.calls .permit then
      (s.leave .permit).enter (if s.alive ∧ ¬ s.closing then .committing else .dropping)
    else s
  | .go p =>
    if s.calls p = 0 then s
    else match p with
    | .admitted =>
      if s.audit then
        if s.auditSlots = 0 then s.leave .admitted
        else ({ s with auditSlots := s.auditSlots - 1 }.leave .admitted).enter .slotted
      else s.send .admitted .sent .refused
    | .slotted => s.send .slotted .sent .refused
    | .sent => { s with accepted := s.accepted + 1 }.leave .sent
    | .refused => s.giveBack.leave .refused
    | .reserving =>
      if s.auditSlots = 0 then s.leave .reserving
      else ({ s with auditSlots := s.auditSlots - 1 }.leave .reserving).enter .permit
    | .permit => s
    | .committing => s.send .committing .committed .dropping
    | .committed => { s with accepted := s.accepted + 1 }.leave .committed
    | .dropping => s.giveBack.leave .dropping

/-- The pending count of `status`. -/
def pending : ℕ := s.accepted - s.completed

/-! ### What every step keeps -/

/-- The slots that an emitter holds within its call. -/
def emitting : ℕ := s.calls .slotted + s.calls .refused

/-- The permits that are held, within a commit or not. -/
def held : ℕ := s.calls .permit + s.calls .committing + s.calls .dropping

/-- The sums that every step keeps, for a lane of audit events or of others. -/
structure Kept (audit : Bool) (s : Lane) : Prop where
  class_eq : s.audit = audit
  slots_sum : audit → s.auditSlots + s.held + s.emitting + s.queue + s.worker.inProcess + s.lost =
    QUEUE_CAPACITY
  events_sum : s.accepted + s.calls .sent + s.calls .committed =
    s.written + s.sinkErrors + s.discarded + s.queue + s.worker.uncounted + s.lost
  completed_eq : s.completed + s.worker.behind =
    s.written + s.sinkErrors + s.discarded + s.worker.ahead
  lost_eq : s.worker ≠ .stopped → s.lost = 0
  queue_eq : s.worker = .stopped → s.queue = 0

theorem kept_new (audit : Bool) : (new audit).Kept audit := by
  constructor <;> simp [new, held, emitting]

variable {s} {t : Lane} {audit : Bool}

/-- What a step of a call does: it moves a slot or an event, and leaves the worker where it is. -/
structure Call (s t : Lane) : Prop where
  audit_eq : t.audit = s.audit
  worker_eq : t.worker = s.worker
  lost_eq : t.lost = s.lost
  completed_eq : t.completed = s.completed
  ended_eq : t.written + t.sinkErrors + t.discarded = s.written + s.sinkErrors + s.discarded
  slots : s.audit → t.auditSlots + t.held + t.emitting + t.queue =
    s.auditSlots + s.held + s.emitting + s.queue
  events : t.accepted + t.calls .sent + t.calls .committed + s.queue =
    s.accepted + s.calls .sent + s.calls .committed + t.queue
  queue_le : s.queue ≤ t.queue
  queue_eq : s.worker = .stopped → t.queue = s.queue

theorem Call.refl (s : Lane) : Call s s :=
  ⟨rfl, rfl, rfl, rfl, rfl, fun _ => rfl, rfl, le_rfl, fun _ => rfl⟩

/-- A call sends its event: its slot goes with the event, or stays with the call. -/
theorem call_send {p done failed : Point} (hp : s.calls p ≠ 0)
    (hpoints : p = .admitted ∧ s.audit = false ∧ done = .sent ∧ failed = .refused ∨
      p = .slotted ∧ done = .sent ∧ failed = .refused ∨
      p = .committing ∧ done = .committed ∧ failed = .dropping) :
    Call s (s.send p done failed) := by
  unfold send
  split_ifs with hsend
  · have hopen : s.worker ≠ .stopped := by
      intro hstop
      simp [trySend, hstop] at hsend
    rcases hpoints with ⟨rfl, hclass, rfl, rfl⟩ | ⟨rfl, rfl, rfl⟩ | ⟨rfl, rfl, rfl⟩ <;>
      refine ⟨rfl, rfl, rfl, rfl, rfl, ?_, ?_, Nat.le_succ _, (absurd · hopen)⟩ <;>
      simp [*, held, emitting, enter, leave] <;> omega
  · rcases hpoints with ⟨rfl, hclass, rfl, rfl⟩ | ⟨rfl, rfl, rfl⟩ | ⟨rfl, rfl, rfl⟩ <;>
      refine ⟨rfl, rfl, rfl, rfl, rfl, ?_, ?_, le_rfl, fun _ => rfl⟩ <;>
      simp [*, held, emitting, enter, leave] <;> omega

theorem call_go (p : Point) : Call s (s.step (.go p)) := by
  unfold step
  dsimp only
  by_cases hp : s.calls p = 0
  · rw [if_pos hp]
    exact .refl s
  rw [if_neg hp]
  cases p with
  | permit => exact .refl s
  | slotted => exact call_send hp (.inr (.inl ⟨rfl, rfl, rfl⟩))
  | committing => exact call_send hp (.inr (.inr ⟨rfl, rfl, rfl⟩))
  | admitted =>
    dsimp only
    split_ifs with hclass hslots
    · refine ⟨rfl, rfl, rfl, rfl, rfl, ?_, ?_, le_rfl, fun _ => rfl⟩ <;>
        simp [held, emitting, leave]
    · refine ⟨rfl, rfl, rfl, rfl, rfl, ?_, ?_, le_rfl, fun _ => rfl⟩ <;>
        simp [held, emitting, enter, leave]
      omega
    · exact call_send hp (.inl ⟨rfl, eq_false_of_ne_true hclass, rfl, rfl⟩)
  | reserving =>
    dsimp only
    split_ifs with hslots
    · refine ⟨rfl, rfl, rfl, rfl, rfl, ?_, ?_, le_rfl, fun _ => rfl⟩ <;>
        simp [held, emitting, leave]
    · refine ⟨rfl, rfl, rfl, rfl, rfl, ?_, ?_, le_rfl, fun _ => rfl⟩ <;>
        simp [held, emitting, enter, leave]
      omega
  | sent | committed =>
    refine ⟨rfl, rfl, rfl, rfl, rfl, ?_, ?_, le_rfl, fun _ => rfl⟩ <;> simp [held, emitting, leave]
    omega
  -- a slot is given back
  | refused | dropping =>
    refine ⟨rfl, rfl, rfl, rfl, rfl, ?_, ?_, le_rfl, fun _ => rfl⟩ <;>
      simp +contextual [held, emitting, giveBack, leave]
    omega

/-- All steps but those of the worker are steps of a call. -/
theorem call_step {e : Step} (he : ∀ ok, e ≠ .worker ok) : Call s (s.step e) := by
  cases e with
  | worker ok => exact absurd rfl (he ok)
  | go p => exact call_go p
  | shutdown => exact ⟨rfl, rfl, rfl, rfl, rfl, fun _ => rfl, rfl, le_rfl, fun _ => rfl⟩
  | emit | reserve =>
    unfold step
    dsimp only
    split_ifs
    · refine ⟨rfl, rfl, rfl, rfl, rfl, ?_, ?_, le_rfl, fun _ => rfl⟩ <;>
        simp [held, emitting, enter]
    · exact .refl s
  | drop =>
    unfold step
    dsimp only
    split_ifs
    · refine ⟨rfl, rfl, rfl, rfl, rfl, ?_, ?_, le_rfl, fun _ => rfl⟩ <;>
        simp [held, emitting, enter, leave]
      omega
    · exact .refl s
  | commit =>
    unfold step
    dsimp only
    by_cases hp : 0 < s.calls .permit
    · split_ifs <;> refine ⟨rfl, rfl, rfl, rfl, rfl, ?_, ?_, le_rfl, fun _ => rfl⟩ <;>
        simp [held, emitting, enter, leave] <;> omega
    · rw [if_neg hp]
      exact .refl s

theorem Kept.call (h : s.Kept audit) (hcall : Call s t) : t.Kept audit := by
  refine ⟨hcall.audit_eq.trans h.class_eq, fun ha => ?_, ?_, ?_, ?_, fun hstop => ?_⟩
  · have hbefore := h.slots_sum ha
    have hmoved := hcall.slots (h.class_eq.trans ha)
    rw [hcall.worker_eq, hcall.lost_eq]
    omega
  · have hbefore := h.events_sum
    have hmoved := hcall.events
    rw [hcall.worker_eq, hcall.lost_eq, hcall.ended_eq]
    omega
  · rw [hcall.worker_eq, hcall.ended_eq, hcall.completed_eq]
    exact h.completed_eq
  · rw [hcall.worker_eq, hcall.lost_eq]
    exact h.lost_eq
  · rw [hcall.worker_eq] at hstop
    rw [hcall.queue_eq hstop, h.queue_eq hstop]

/-- A step of the worker, which moves a slot or an event while the channel is open. -/
theorem Kept.move (h : s.Kept audit) (hopen : s.worker ≠ .stopped ∧ t.worker ≠ .stopped)
    (hframe : t.audit = s.audit ∧ t.calls = s.calls ∧ t.accepted = s.accepted ∧ t.lost = s.lost)
    (hslots : s.audit → t.auditSlots + t.queue + t.worker.inProcess =
      s.auditSlots + s.queue + s.worker.inProcess)
    (hevents : t.written + t.sinkErrors + t.discarded + t.queue + t.worker.uncounted =
      s.written + s.sinkErrors + s.discarded + s.queue + s.worker.uncounted)
    (hcompleted : t.completed + t.worker.behind + (s.written + s.sinkErrors + s.discarded +
        s.worker.ahead) =
      s.completed + s.worker.behind + (t.written + t.sinkErrors + t.discarded + t.worker.ahead)) :
    t.Kept audit := by
  obtain ⟨haudit, hcalls, haccepted, hlost⟩ := hframe
  refine ⟨haudit.trans h.class_eq, fun ha => ?_, ?_, ?_, fun _ => ?_, (absurd · hopen.2)⟩
  · have hbefore := h.slots_sum ha
    have hmoved := hslots (h.class_eq.trans ha)
    simp only [held, emitting, hcalls, hlost] at hbefore ⊢
    omega
  · have hbefore := h.events_sum
    rw [hcalls]
    omega
  · have hbefore := h.completed_eq
    omega
  · rw [hlost, h.lost_eq hopen.1]

theorem Kept.workerStep (h : s.Kept audit) (ok : Bool) : (s.workerStep ok).Kept audit := by
  unfold Lane.workerStep
  cases hw : s.worker with
  | receiving | draining =>
    dsimp only
    split_ifs with hqueue
    · refine h.move ?_ ⟨rfl, rfl, rfl, rfl⟩ ?_ ?_ ?_ <;> simp [hw] <;> omega
    · refine h.move ?_ ⟨rfl, rfl, rfl, rfl⟩ ?_ ?_ ?_ <;> simp [hw]
  | timedOut =>
    split_ifs with hclosing <;>
      refine h.move ?_ ⟨rfl, rfl, rfl, rfl⟩ ?_ ?_ ?_ <;> simp [hw]
  | failed | leaving | discarded => refine h.move ?_ ⟨rfl, rfl, rfl, rfl⟩ ?_ ?_ ?_ <;> simp [hw]
  | processing =>
    refine h.move ?_ ⟨rfl, rfl, rfl, rfl⟩ ?_ ?_ ?_ <;> simp [hw]
    omega
  | discarding => refine h.move ?_ ⟨rfl, rfl, rfl, rfl⟩ ?_ ?_ ?_ <;> simp [hw] <;> omega
  | returned written =>
    cases written <;> refine h.move ?_ ⟨rfl, rfl, rfl, rfl⟩ ?_ ?_ ?_ <;> simp [hw] <;> omega
  -- a slot is given back
  | completed | drained =>
    refine h.move ?_ ⟨rfl, rfl, rfl, rfl⟩ ?_ ?_ ?_ <;> simp +contextual [hw, giveBack]
    omega
  -- what is in the channel is lost
  | closing =>
    obtain ⟨hclass, hslots, hevents, hcompleted, hlost, -⟩ := h
    rw [hw] at hslots hevents hcompleted
    rw [hlost (by simp [hw])] at hslots hevents
    exact ⟨hclass, hslots, hevents, hcompleted, fun hopen => absurd rfl hopen, fun _ => rfl⟩
  | stopped => exact h

theorem Kept.step (h : s.Kept audit) (e : Step) : (s.step e).Kept audit := by
  by_cases he : ∃ ok, e = .worker ok
  · obtain ⟨ok, rfl⟩ := he
    exact h.workerStep ok
  · exact h.call (call_step (not_exists.1 he))

theorem kept_run (audit : Bool) (steps : List Step) : (steps.foldl step (new audit)).Kept audit :=
  Run.foldl_invariant (fun _ e h => h.step e) (kept_new audit) steps

/-- The events that are sent after the worker's last look at the channel: it looks again whenever it
does not go on to leave its loop. -/
def sentSinceLook : Lane → ℕ → List Step → ℕ
  | _, n, [] => n
  | s, n, e :: steps =>
    sentSinceLook (s.step e)
      (if (s.step e).worker.looked then n + ((s.step e).queue - s.queue) else 0) steps

/-- What is in the channel or lost was sent since the last look. -/
theorem Kept.looked_step (h : s.Kept audit) (e : Step) (hlooked : (s.step e).worker.looked = true) :
    (s.step e).queue + (s.step e).lost =
      (if s.worker.looked then s.queue + s.lost else 0) + ((s.step e).queue - s.queue) := by
  by_cases he : ∃ ok, e = .worker ok
  · obtain ⟨ok, rfl⟩ := he
    have hlost := h.lost_eq
    unfold Lane.step Lane.workerStep at hlooked ⊢
    cases hw : s.worker with
    | returned written => cases written <;> simp [hw, Worker.looked] at hlooked
    | stopped => simp [Worker.looked]
    | receiving | draining =>
      have hnone : s.queue = 0 := by
        by_contra hsome
        simp [hw, pos_of_ne_zero hsome, Worker.looked] at hlooked
      simp [hw, hnone, hlost, Worker.looked]
    | _ => simp_all [Worker.looked]
  · have hcall : Call s (s.step e) := call_step (not_exists.1 he)
    have hqueue := hcall.queue_le
    rw [hcall.worker_eq] at hlooked
    rw [if_pos hlooked, hcall.lost_eq]
    omega

/-- The run from any state. -/
theorem Kept.lost_eq_sent (h : s.Kept audit) (steps : List Step)
    (hstop : (steps.foldl Lane.step s).worker = .stopped) :
    (steps.foldl Lane.step s).lost =
      sentSinceLook s (if s.worker.looked then s.queue + s.lost else 0) steps := by
  induction steps generalizing s with
  | nil =>
    have hqueue := h.queue_eq hstop
    rw [List.foldl_nil] at hstop ⊢
    simp [sentSinceLook, hstop, Worker.looked, hqueue]
  | cons e steps ih =>
    rw [sentSinceLook, List.foldl_cons, ih (h.step e) hstop]
    by_cases hlooked : (s.step e).worker.looked = true
    · rw [if_pos hlooked, if_pos hlooked, h.looked_step e hlooked]
    · rw [if_neg hlooked, if_neg hlooked]

/-- **The slots of the audit lane.**  At every step, until the channel is closed, a slot is
available, of a held permit, of an emitter within its call, or of an event in the channel or in
process; and an event of a permit does not meet a full channel. -/
theorem audit_slots_conserved (steps : List Step) :
    let s := steps.foldl step (new true)
    (s.worker ≠ .stopped →
      s.auditSlots + s.held + s.emitting + s.queue + s.worker.inProcess = QUEUE_CAPACITY) ∧
    (0 < s.calls .committing → s.trySend ≠ .full) := by
  intro s
  have h : s.Kept true := kept_run true steps
  have hsum := h.slots_sum rfl
  refine ⟨fun hopen => ?_, fun hcom => ?_⟩
  · have := h.lost_eq hopen
    omega
  · have : s.held = s.calls .permit + s.calls .committing + s.calls .dropping := rfl
    unfold trySend
    rw [if_pos (by omega : s.queue < QUEUE_CAPACITY)]
    split_ifs <;> simp

/-- An emitter has taken a slot and not sent its event. -/
theorem slot_of_emitter :
    let s := [Step.emit, .go .admitted].foldl step (new true)
    s.worker = .receiving ∧ s.auditSlots + s.held + s.queue + s.worker.inProcess = 127 := by
  decide

/-- **Every accepted event is counted once more.**  When the worker has stopped and no call is in
progress, what was accepted was written, was a sink error, was discarded, or was left in the closed
channel; so the counts agree exactly if no event was sent after the worker's last look at it. -/
theorem accepted_accounted_iff (audit : Bool) (steps : List Step)
    (hstop : (steps.foldl step (new audit)).worker = .stopped)
    (hidle : ∀ p ≠ .permit, (steps.foldl step (new audit)).calls p = 0) :
    let s := steps.foldl step (new audit)
    s.accepted = s.written + s.sinkErrors + s.discarded + s.lost ∧ s.pending = s.lost ∧
    (s.accepted = s.written + s.sinkErrors + s.discarded ∧ s.pending = 0 ↔ s.lost = 0) ∧
    s.lost = sentSinceLook (new audit) 0 steps := by
  intro s
  have h := kept_run audit steps
  have hsum := h.events_sum
  have hdone := h.completed_eq
  rw [hidle .sent (by simp), hidle .committed (by simp), h.queue_eq hstop, hstop] at hsum
  rw [hstop] at hdone
  have hacc : s.accepted = s.written + s.sinkErrors + s.discarded + s.lost := by
    simpa using hsum
  have hcom : s.completed = s.written + s.sinkErrors + s.discarded := by
    simpa using hdone
  refine ⟨hacc, ?_, ?_, (kept_new audit).lost_eq_sent steps hstop⟩ <;> unfold pending <;> omega

/-- An event is written, and the lane is shut down. -/
def writtenRun : List Step :=
  [.emit, .go .admitted, .go .sent] ++ List.replicate 4 (.worker true) ++ [.shutdown] ++
    List.replicate 4 (.worker true)

theorem accepted_accounted_written :
    let s := writtenRun.foldl step (new false)
    s.accepted = 1 ∧ s.written = 1 ∧ s.lost = 0 ∧ sentSinceLook (new false) 0 writtenRun = 0 ∧
      s.accepted = s.written + s.sinkErrors + s.discarded ∧ s.pending = 0 := by
  have h := accepted_accounted_iff false writtenRun (by decide) (by intro p _; cases p <;> decide)
  exact ⟨by decide, by decide, by decide, h.2.2.2.symm, h.2.2.1.2 (by decide)⟩

/-- An emitter passes its checks, the worker leaves its loop after a shutdown, and then the event is
sent. -/
theorem event_after_last_look :
    let s := ([.emit, .shutdown, .worker true, .worker true, .go .admitted, .go .sent,
      .worker true, .worker true] : List Step).foldl step (new false)
    s.worker = .stopped ∧ (∀ p, s.calls p = 0) ∧ s.accepted = 1 ∧
      s.written + s.sinkErrors + s.discarded = 0 ∧ s.pending = 1 := by
  refine ⟨by decide, ?_, by decide, by decide, by decide⟩
  intro p
  cases p <;> decide

end Lane

end Fluxheim.Observability
