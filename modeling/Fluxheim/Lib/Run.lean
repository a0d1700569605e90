import Mathlib.Data.List.Basic

/-!
# Runs of a state machine

A machine is a function `step : σ → ε → σ`; a run takes the events of a list in order, so the state
it reaches is `events.foldl step s`.
-/

namespace Run

variable {σ ε : Type*} {step : σ → ε → σ} {good : σ → ε → Prop} {s : σ}

/-- Every step of the run meets the condition, in the state the run has then reached. -/
def Along (step : σ → ε → σ) (good : σ → ε → Prop) : σ → List ε → Prop
  | _, [] => True
  | s, e :: events => good s e ∧ Along step good (step s e) events

instance Along.decidable [∀ s e, Decidable (good s e)] :
    ∀ s events, Decidable (Along step good s events)
  | _, [] => .isTrue trivial
  | s, e :: events =>
    haveI := Along.decidable (step s e) events
    inferInstanceAs (Decidable (good s e ∧ Along step good (step s e) events))

theorem along_append {before after : List ε} :
    Along step good s (before ++ after) ↔
      Along step good s before ∧ Along step good (before.foldl step s) after := by
  induction before generalizing s with
  | nil => simp [Along]
  | cons e before ih => simp [Along, ih, and_assoc]

/-- **Invariant rule.** -/
theorem Along.invariant {events : List ε} {P : σ → Prop} (h : Along step good s events)
    (hstep : ∀ s e, P s → good s e → P (step s e)) (hs : P s) : P (events.foldl step s) := by
  induction events generalizing s with
  | nil => exact hs
  | cons e events ih => exact ih h.2 (hstep s e hs h.1)

/-- What the invariant implies of a step holds at every step. -/
theorem Along.of_invariant {events : List ε} {other : σ → ε → Prop} {P : σ → Prop}
    (h : Along step good s events) (hstep : ∀ s e, P s → good s e → P (step s e))
    (hother : ∀ s e, P s → good s e → other s e) (hs : P s) : Along step other s events := by
  induction events generalizing s with
  | nil => trivial
  | cons e events ih => exact ⟨hother s e hs h.1, ih h.2 (hstep s e hs h.1)⟩

/-- The rule for an invariant that every step keeps. -/
theorem foldl_invariant {P : σ → Prop} (hstep : ∀ s e, P s → P (step s e)) (hs : P s)
    (events : List ε) : P (events.foldl step s) := by
  induction events generalizing s with
  | nil => exact hs
  | cons e events ih => exact ih (hstep s e hs)

theorem Along.good_at {before after : List ε} {e : ε}
    (h : Along step good s (before ++ e :: after)) : good (before.foldl step s) e :=
  (along_append.1 h).2.1

theorem Along.before {before after : List ε} (h : Along step good s (before ++ after)) :
    Along step good s before :=
  (along_append.1 h).1

theorem Along.and {other : σ → ε → Prop} {events : List ε} (h : Along step good s events)
    (h' : Along step other s events) : Along step (fun s e => good s e ∧ other s e) s events := by
  induction events generalizing s with
  | nil => trivial
  | cons e events ih => exact ⟨⟨h.1, h'.1⟩, ih h.2 h'.2⟩

end Run
