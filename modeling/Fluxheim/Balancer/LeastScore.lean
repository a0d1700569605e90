import Mathlib.Algebra.Order.Field.Basic
import Mathlib.Data.Prod.Lex
import Mathlib.Data.Rat.Cast.Order
import Mathlib.Tactic.NormNum
import Fluxheim.Balancer.RoundRobinShare

/-!
# The lowest load per weight

Least connections, least sessions and least time go through the allowed backends and keep the best
so far.  Loads per weight are compared by cross-multiplication, in machine numbers that stop at the
largest.  While no product reaches it, the scan is the `List.argmin` of the ratio over the allowed
backends.
-/

namespace Fluxheim.Balancer.SelectionContext

/-- One of the candidates, and none of them has a lower ratio. -/
structure Minimises {R : Type} [LE R] (ratio : FluxBackend → R) (candidates : List FluxBackend)
    (backend : FluxBackend) : Prop where
  mem : backend ∈ candidates
  le : ∀ other ∈ candidates, ratio backend ≤ ratio other

section Scan

variable {γ R : Type} [LinearOrder R] {test : FluxBackend → SelectionState → Bool × SelectionState}
  {score : FluxBackend → γ} {isLower : γ → γ → Bool} {ratio : FluxBackend → R}

/-- The comparison of the scores is that of the ratios, among these backends. -/
def Compares (score : FluxBackend → γ) (isLower : γ → γ → Bool) (ratio : FluxBackend → R)
    (candidates : List FluxBackend) : Prop :=
  ∀ a ∈ candidates, ∀ b ∈ candidates, isLower (score a) (score b) = true ↔ ratio a < ratio b

theorem leastLoop_eq_foldl (backends : List FluxBackend) (best : Option FluxBackend)
    (s : SelectionState)
    (h : Compares score isLower ratio (best.toList ++ (Cascade.filter test backends s).1)) :
    (leastLoop test score isLower backends (best.map fun b => (b, score b)) s).1 =
      (Cascade.filter test backends s).1.foldl (List.argAux fun a b => ratio a < ratio b) best := by
  induction backends generalizing best s with
  | nil => cases best <;> rfl
  | cons b backends ih =>
    rw [leastLoop, Cascade.filter] at *
    cases hb : (test b s).1 with
    | false => simpa using ih best _ (by simpa [hb] using h)
    | true =>
      rw [hb] at h
      -- the new best is among the candidates still compared
      cases best with
      | none => exact ih (some b) _ h
      | some best =>
        have hlow : isLower (score b) (score best) = true ↔ ratio b < ratio best :=
          h b (by simp) best (by simp)
        by_cases hlt : ratio b < ratio best
        · have hnew := ih (some b) (test b s).2 fun x hx y hy =>
            h x (List.mem_of_mem_tail hx) y (List.mem_of_mem_tail hy)
          simpa [List.argAux, hlt, hlow.2 hlt] using hnew
        · have hold := ih (some best) (test b s).2 fun x hx y hy =>
            h x (by simp at hx ⊢; tauto) y (by simp at hy ⊢; tauto)
          have hno : isLower (score b) (score best) = false := by
            simpa using fun hyes => hlt (hlow.1 hyes)
          simpa [List.argAux, hlt, hno] using hold

/-- The scan of a pass finds the first of the allowed backends with the lowest ratio. -/
theorem leastLoop_eq_argmin (context : SelectionContext) (pass : SelectionPass) (s : SelectionState)
    (h : Compares score isLower ratio (context.allowedBackends pass s)) :
    (context.selectLeastWithBackupPolicy score isLower pass s).1 =
      (context.allowedBackends pass s).argmin ratio :=
  leastLoop_eq_foldl context.snapshot.backends none s h

end Scan

/-- Load per weight. -/
def loadPerWeight (score : ℕ × ℕ) : ℚ := score.1 / score.2

/-- Time per weight, and then load per weight. -/
def timePerWeight (score : ℕ × ℕ × ℕ) : ℚ ×ₗ ℚ :=
  toLex (score.1 / score.2.2, loadPerWeight score.2)

/-- No load of one times a weight of another goes beyond the largest machine number. -/
def NoSaturation (score : FluxBackend → ℕ × ℕ) (candidates : List FluxBackend) : Prop :=
  ∀ a ∈ candidates, ∀ b ∈ candidates, (score a).1 * (score b).2 ≤ USIZE_MAX

theorem perWeight_lt_iff {a b v w : ℕ} (hv : 0 < v) (hw : 0 < w) :
    (a / v : ℚ) < b / w ↔ a * w < b * v := by
  rw [div_lt_div_iff₀ (by exact_mod_cast hv) (by exact_mod_cast hw)]
  exact_mod_cast Iff.rfl

theorem perWeight_eq_iff {a b v w : ℕ} (hv : 0 < v) (hw : 0 < w) :
    (a / v : ℚ) = b / w ↔ a * w = b * v := by
  rw [div_eq_div_iff (by exact_mod_cast hv.ne') (by exact_mod_cast hw.ne')]
  exact_mod_cast Iff.rfl

theorem scoreIsLower_iff {a b : ℕ × ℕ} (ha : 0 < a.2) (hb : 0 < b.2)
    (hab : a.1 * b.2 ≤ USIZE_MAX) (hba : b.1 * a.2 ≤ USIZE_MAX) :
    leastConnectionsScoreIsLower a b = true ↔ loadPerWeight a < loadPerWeight b := by
  rw [leastConnectionsScoreIsLower, min_eq_right hab, min_eq_right hba,
    decide_eq_true_iff, loadPerWeight, loadPerWeight, perWeight_lt_iff ha hb]

theorem timeScoreIsLower_iff {a b : ℕ × ℕ × ℕ} (ha : 0 < a.2.2) (hb : 0 < b.2.2)
    (hab : a.2.1 * b.2.2 ≤ USIZE_MAX) (hba : b.2.1 * a.2.2 ≤ USIZE_MAX) :
    leastTimeScoreIsLower a b = true ↔ timePerWeight a < timePerWeight b := by
  simp only [leastTimeScoreIsLower, timePerWeight, Prod.Lex.toLex_lt_toLex, Bool.or_eq_true,
    Bool.and_eq_true, decide_eq_true_eq, scoreIsLower_iff ha hb hab hba, perWeight_lt_iff ha hb,
    perWeight_eq_iff ha hb]

section Scores

variable (context : SelectionContext)

variable {candidates : List FluxBackend}

theorem compares_load {score : FluxBackend → ℕ × ℕ} (hweight : ∀ b, 0 < (score b).2)
    (h : NoSaturation score candidates) :
    Compares score leastConnectionsScoreIsLower (fun b => loadPerWeight (score b)) candidates :=
  fun a ha b hb => scoreIsLower_iff (hweight a) (hweight b) (h a ha b hb) (h b hb a ha)

theorem compares_time (latency : BackendLatencyState)
    (h : NoSaturation context.connectionScore candidates) :
    Compares (context.timeScore latency) leastTimeScoreIsLower
      (fun b => timePerWeight (context.timeScore latency b)) candidates :=
  fun a ha b hb => timeScoreIsLower_iff (context.backendPolicy.effectiveWeight_pos a)
    (context.backendPolicy.effectiveWeight_pos b) (h a ha b hb) (h b hb a ha)

end Scores

/-- A pass finds somebody if it allows anybody, and then a backend of lowest ratio among the
allowed. The selection as a whole returns what one of its passes finds. -/
structure SelectsLeast {R : Type} [LE R] (context : SelectionContext) (select : Choice)
    (withBackupPolicy : SelectionPass → Choice) (fits : List FluxBackend → Prop)
    (ratio : FluxBackend → R) : Prop where
  none_iff : ∀ pass s, (withBackupPolicy pass s).1 = none ↔ context.allowedBackends pass s = []
  minimises : ∀ pass s backend, fits (context.allowedBackends pass s) →
    (withBackupPolicy pass s).1 = some backend →
    Minimises ratio (context.allowedBackends pass s) backend
  of_pass : ∀ s backend, fits context.snapshot.backends →
    (select s).1 = some backend →
    ∃ pass ∈ context.backendPolicy.selectionPasses, ∃ t,
      (withBackupPolicy pass t).1 = some backend ∧
        Minimises ratio (context.allowedBackends pass t) backend

theorem minimises_of_argmin {R : Type} [LinearOrder R] {ratio : FluxBackend → R}
    {candidates : List FluxBackend} {backend : FluxBackend}
    (h : candidates.argmin ratio = some backend) : Minimises ratio candidates backend where
  mem := List.argmin_mem h
  le _ hother := List.le_of_mem_argmin hother h

theorem mem_of_mem_allowedBackends {context : SelectionContext} {pass : SelectionPass}
    {s : SelectionState} {backend : FluxBackend} (h : backend ∈ context.allowedBackends pass s) :
    backend ∈ context.snapshot.backends :=
  (Cascade.mem_filter h).1

theorem selectsLeast {γ R : Type} [LinearOrder R] (context : SelectionContext)
    {score : FluxBackend → γ} {isLower : γ → γ → Bool} {ratio : FluxBackend → R}
    {fits : List FluxBackend → Prop}
    (hcom : ∀ candidates, fits candidates → Compares score isLower ratio candidates)
    (hmono : ∀ large small : List FluxBackend, (∀ b ∈ small, b ∈ large) → fits large → fits small) :
    context.SelectsLeast (context.overPasses (context.selectLeastWithBackupPolicy score isLower))
      (context.selectLeastWithBackupPolicy score isLower) fits ratio := by
  have hpass : ∀ pass s backend, fits (context.allowedBackends pass s) →
      (context.selectLeastWithBackupPolicy score isLower pass s).1 = some backend →
      Minimises ratio (context.allowedBackends pass s) backend := by
    intro pass s backend hfits h
    rw [leastLoop_eq_argmin context pass s (hcom _ hfits)] at h
    exact minimises_of_argmin h
  refine ⟨(takesAny_least score isLower).none_iff, hpass, ?_⟩
  intro s backend hfits h
  obtain ⟨pass, hmem, t, ht⟩ := Cascade.firstSome_some h
  split_ifs at ht
  exact ⟨pass, hmem, t, ht,
    hpass pass t backend (hmono _ _ (fun b hb => mem_of_mem_allowedBackends hb) hfits) ht⟩

theorem NoSaturation.mono {score : FluxBackend → ℕ × ℕ} (large small : List FluxBackend)
    (hsub : ∀ b ∈ small, b ∈ large) (h : NoSaturation score large) : NoSaturation score small :=
  fun a ha b hb => h a (hsub a ha) b (hsub b hb)

/-- **Least connections, least sessions and least time select a backend of lowest ratio**: of
requests in flight, of sessions, and of response time and then of requests in flight, each per
effective weight. -/
theorem least_selections_minimise (context : SelectionContext)
    (sessions : AList fun _ : Key => ℕ) (latency : BackendLatencyState) :
    context.SelectsLeast context.selectLeastConnections
      (context.selectLeastWithBackupPolicy context.connectionScore leastConnectionsScoreIsLower)
      (NoSaturation context.connectionScore) (fun b => loadPerWeight (context.connectionScore b)) ∧
    context.SelectsLeast (context.selectLeastSessions sessions)
      (context.selectLeastWithBackupPolicy (context.sessionScore sessions)
        leastConnectionsScoreIsLower)
      (NoSaturation (context.sessionScore sessions))
      (fun b => loadPerWeight (context.sessionScore sessions b)) ∧
    context.SelectsLeast (context.selectLeastTime latency)
      (context.selectLeastWithBackupPolicy (context.timeScore latency) leastTimeScoreIsLower)
      (NoSaturation context.connectionScore)
      (fun b => timePerWeight (context.timeScore latency b)) := by
  have hpos := context.backendPolicy.effectiveWeight_pos
  exact ⟨context.selectsLeast (fun _ => compares_load hpos) NoSaturation.mono,
    context.selectsLeast (fun _ => compares_load hpos) NoSaturation.mono,
    context.selectsLeast (fun _ => context.compares_time latency) NoSaturation.mono⟩

/-- One request in flight on either of two backends: the one with twice the weight is next. -/
theorem least_selections_minimise_pair :
    let context := { pairContext with counters := fun _ => 1 }
    let selected := (context.selectLeastWithBackupPolicy context.connectionScore
      leastConnectionsScoreIsLower floorPass steadyState).1
    selected = some heavyBackend ∧
      Minimises (fun b => loadPerWeight (context.connectionScore b))
        (context.allowedBackends floorPass steadyState) heavyBackend := by
  intro context selected
  have hsel : selected = some heavyBackend := by decide +kernel
  have hfits : NoSaturation context.connectionScore
      (context.allowedBackends floorPass steadyState) := by
    unfold NoSaturation
    decide +kernel
  exact ⟨hsel, (least_selections_minimise context ∅ ∅).1.minimises floorPass steadyState
    heavyBackend hfits hsel⟩

end Fluxheim.Balancer.SelectionContext
