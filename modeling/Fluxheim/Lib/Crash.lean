import Mathlib.Data.Nat.Notation
import Mathlib.Logic.Basic

/-!
# Programs that can be cut off

A program acts on a state that outlives it, one atomic operation at a time, and may be cut off
before any of them: it is run with a budget of operations and stops for good when that is used up.

As the budget is arbitrary in `wp`, its third condition holds in *every* state between two
operations.  `Runs` says which operation each of these states comes before.
-/

namespace Crash

/-- How a program ends; what is left of the budget is passed on. -/
inductive Outcome (σ ε α : Type) where
  | ok (value : α) (state : σ) (budget : ℕ)
  | error (error : ε) (state : σ) (budget : ℕ)
  | crashed (state : σ)

/-- The state that a program leaves, however it ends. -/
def Outcome.state {σ ε α : Type} : Outcome σ ε α → σ
  | .ok _ s _ => s
  | .error _ s _ => s
  | .crashed s => s

/-- What a program ends with, if it is not cut off. -/
def Outcome.result {σ ε α : Type} : Outcome σ ε α → Option (Except ε α)
  | .ok a _ _ => some (.ok a)
  | .error e _ _ => some (.error e)
  | .crashed _ => none

/-- Programs that can be cut off. -/
def Prog (σ ε α : Type) : Type :=
  σ → ℕ → Outcome σ ε α

variable {σ ε α β : Type}

namespace Prog

instance : Monad (Prog σ ε) where
  pure a := fun s n => .ok a s n
  bind c f := fun s n =>
    match c s n with
    | .ok a s n => f a s n
    | .error e s n => .error e s n
    | .crashed s => .crashed s

/-- One atomic operation; when it fails, the state is as before. -/
def op (f : σ → Except ε (α × σ)) : Prog σ ε α := fun s n =>
  match n with
  | 0 => .crashed s
  | n + 1 =>
    match f s with
    | .ok (a, s') => .ok a s' n
    | .error e => .error e s n

/-- A look at the state. -/
def look (f : σ → α) : Prog σ ε α := fun s n => .ok (f s) s n

/-- A look at the state that can fail. -/
def inspect (f : σ → Except ε α) : Prog σ ε α := fun s n =>
  match f s with
  | .ok a => .ok a s n
  | .error e => .error e s n

/-- An error. -/
def fail (e : ε) : Prog σ ε α := fun s n => .error e s n

/-- The program, with its error handed to the caller. -/
def attempt (c : Prog σ ε α) : Prog σ ε (Except ε α) := fun s n =>
  match c s n with
  | .ok a s n => .ok (.ok a) s n
  | .error e s n => .ok (.error e) s n
  | .crashed s => .crashed s

/-- The program, with another error in place of its own. -/
def mapError (f : ε → ε) (c : Prog σ ε α) : Prog σ ε α := fun s n =>
  match c s n with
  | .ok a s n => .ok a s n
  | .error e s n => .error (f e) s n
  | .crashed s => .crashed s

/-- From `s`, under every budget: the program returns as `Q` says, fails as `E` says, or is cut off
in a state that satisfies `I`. -/
def wp (c : Prog σ ε α) (Q : α → σ → Prop) (E : ε → σ → Prop) (I : σ → Prop) (s : σ) : Prop :=
  ∀ n, match c s n with
    | .ok a s' _ => Q a s'
    | .error e s' _ => E e s'
    | .crashed s' => I s'

variable {Q Q' : α → σ → Prop} {R : β → σ → Prop} {E E' : ε → σ → Prop} {I I' : σ → Prop}
  {c : Prog σ ε α} {f : α → Prog σ ε β} {s : σ}

theorem wp_pure {a : α} (h : Q a s) : wp (pure a) Q E I s :=
  fun _ => h

theorem wp_fail {e : ε} (h : E e s) : wp (fail e) Q E I s :=
  fun _ => h

theorem wp_look {g : σ → α} (h : Q (g s) s) : wp (look g) Q E I s :=
  fun _ => h

theorem wp_inspect {g : σ → Except ε α} (hok : ∀ a, g s = .ok a → Q a s)
    (herr : ∀ e, g s = .error e → E e s) : wp (inspect g) Q E I s := by
  intro n
  simp only [inspect]
  cases hg : g s with
  | ok a => exact hok a hg
  | error e => exact herr e hg

variable {g : σ → Except ε (α × σ)}

theorem wp_op (hI : I s)
    (hok : ∀ a s', g s = .ok (a, s') → Q a s') (herr : ∀ e, g s = .error e → E e s) :
    wp (op g) Q E I s := by
  intro n
  cases n with
  | zero => exact hI
  | succ n =>
    simp only [op]
    cases hg : g s with
    | ok r => exact hok r.1 r.2 hg
    | error e => exact herr e hg

theorem wp_mono (h : wp c Q E I s) (hQ : ∀ a s', Q a s' → Q' a s')
    (hE : ∀ e s', E e s' → E' e s') (hI : ∀ s', I s' → I' s') : wp c Q' E' I' s := by
  intro n
  have hn := h n
  cases hc : c s n with
  | ok a s' m => rw [hc] at hn; exact hQ a s' hn
  | error e s' m => rw [hc] at hn; exact hE e s' hn
  | crashed s' => rw [hc] at hn; exact hI s' hn

theorem wp_bind (h : wp c (fun a s' => wp (f a) R E I s') E I s) : wp (c >>= f) R E I s := by
  intro n
  have hn := h n
  change match (match c s n with
    | .ok a s n => f a s n
    | .error e s n => .error e s n
    | .crashed s => .crashed s : Outcome σ ε β) with
    | .ok b s' _ => R b s'
    | .error e s' _ => E e s'
    | .crashed s' => I s'
  cases hc : c s n with
  | ok a s' m => rw [hc] at hn; exact hn m
  | error e s' m => rw [hc] at hn; exact hn
  | crashed s' => rw [hc] at hn; exact hn

/-- **A call**, by the specification of what is called. -/
theorem wp_call (h : wp c Q E' I' s) (hE : ∀ e s', E' e s' → E e s') (hI : ∀ s', I' s' → I s')
    (hnext : ∀ a s', Q a s' → wp (f a) R E I s') : wp (c >>= f) R E I s :=
  wp_bind (wp_mono h hnext hE hI)

theorem wp_attempt {R : Except ε α → σ → Prop}
    (h : wp c (fun a s' => R (.ok a) s') (fun e s' => R (.error e) s') I s) :
    wp (attempt c) R E I s := by
  intro n
  have hn := h n
  simp only [attempt]
  cases hc : c s n with
  | ok a s' m => rw [hc] at hn; exact hn
  | error e s' m => rw [hc] at hn; exact hn
  | crashed s' => rw [hc] at hn; exact hn

theorem wp_mapError {g : ε → ε} (h : wp c Q (fun e s' => E (g e) s') I s) :
    wp (mapError g c) Q E I s := by
  intro n
  have hn := h n
  simp only [mapError]
  cases hc : c s n with
  | ok a s' m => rw [hc] at hn; exact hn
  | error e s' m => rw [hc] at hn; exact hn
  | crashed s' => rw [hc] at hn; exact hn

/-- What holds however the program ends holds of the state it leaves. -/
theorem wp_state {P : σ → Prop} (h : wp c (fun _ => P) (fun _ => P) P s) (n : ℕ) :
    P (c s n).state := by
  have hn := h n
  cases hc : c s n with
  | ok a s' m => rw [hc] at hn; exact hn
  | error e s' m => rw [hc] at hn; exact hn
  | crashed s' => rw [hc] at hn; exact hn

/-- What holds when the program returns. -/
theorem wp_result {n : ℕ} {a : α} (h : wp c Q E I s) (hres : (c s n).result = some (.ok a)) :
    Q a (c s n).state := by
  have hn := h n
  cases hc : c s n with
  | ok a' s' m =>
    rw [hc] at hn hres
    obtain rfl := Except.ok.inj (Option.some.inj hres)
    exact hn
  | error e s' m => rw [hc] at hres; cases hres
  | crashed s' => rw [hc] at hres; cases hres

/-- How a run ends that is not cut off. -/
def finish (r : Except ε α) (s : σ) (n : ℕ) : Outcome σ ε α :=
  match r with
  | .ok a => .ok a s n
  | .error e => .error e s n

/-- From `s` the program passes through the states `visited`, one before each of its operations, and
ends with `r` in `s'`. -/
def Runs (c : Prog σ ε α) (s : σ) (visited : List σ) (r : Except ε α) (s' : σ) : Prop :=
  ∀ n, c s n = (visited[n]?).elim (finish r s' (n - visited.length)) .crashed

variable {s' s'' : σ} {r r' : Except ε α} {visited visited' : List σ}

theorem runs_pure (a : α) : Runs (pure a : Prog σ ε α) s [] (.ok a) s :=
  fun _ => rfl

theorem runs_fail (e : ε) : Runs (fail e : Prog σ ε α) s [] (.error e) s :=
  fun _ => rfl

theorem runs_look (g : σ → α) : Runs (look g : Prog σ ε α) s [] (.ok (g s)) s :=
  fun _ => rfl

theorem runs_op {a : α} (h : g s = .ok (a, s')) : Runs (op g) s [s] (.ok a) s' := by
  intro n
  cases n with
  | zero => rfl
  | succ n => simp [op, h, finish]

theorem runs_op_error {e : ε} (h : g s = .error e) : Runs (op g) s [s] (.error e) s := by
  intro n
  cases n with
  | zero => rfl
  | succ n => simp [op, h, finish]

theorem bind_apply (c : Prog σ ε α) (f : α → Prog σ ε β) (s : σ) (n : ℕ) :
    (c >>= f) s n =
      match c s n with
      | .ok a s n => f a s n
      | .error e s n => .error e s n
      | .crashed s => .crashed s :=
  rfl

/-- **One program after the other**: the states of the first, then those of the second. -/
theorem Runs.bind {a : α} {r : Except ε β} (h : Runs c s visited (.ok a) s')
    (hf : Runs (f a) s' visited' r s'') : Runs (c >>= f) s (visited ++ visited') r s'' := by
  intro n
  rw [bind_apply, h n]
  by_cases hn : n < visited.length
  · rw [List.getElem?_append_left hn, List.getElem?_eq_getElem hn]
    rfl
  · have hle : visited.length ≤ n := Nat.le_of_not_lt hn
    rw [List.getElem?_append_right hle, List.getElem?_eq_none hle]
    simp only [Option.elim_none, finish, hf (n - visited.length), List.length_append, Nat.sub_sub]

theorem Runs.bind_error {e : ε} (h : Runs c s visited (.error e) s') :
    Runs (c >>= f) s visited (.error e) s' := by
  intro n
  rw [bind_apply, h n]
  cases visited[n]? with
  | none => rfl
  | some t => rfl

theorem Runs.attempt (h : Runs c s visited r s') : Runs (attempt c) s visited (.ok r) s' := by
  intro n
  rw [Prog.attempt, h n]
  cases visited[n]? with
  | some t => rfl
  | none =>
    cases r with
    | ok a => rfl
    | error e => rfl

/-- The state that a run leaves, whether it is cut off or not. -/
theorem Runs.state (h : Runs c s visited r s') (n : ℕ) : (c s n).state = (visited[n]?).getD s' := by
  rw [h n]
  cases visited[n]? with
  | some t => rfl
  | none =>
    cases r with
    | ok a => rfl
    | error e => rfl

/-- Under every budget that is enough, the run is the same. -/
theorem Runs.eq_of_result {n : ℕ} (h : Runs c s visited r s') (hres : (c s n).result = some r') :
    r = r' ∧ s' = (c s n).state := by
  rw [h.state n]
  rw [h n] at hres
  cases hn : visited[n]? with
  | some t =>
    rw [hn] at hres
    cases hres
  | none =>
    rw [hn] at hres
    cases r with
    | ok a => exact ⟨Option.some.inj hres, rfl⟩
    | error e => exact ⟨Option.some.inj hres, rfl⟩

theorem Runs.unique (h : Runs c s visited r s') (h' : Runs c s visited' r' s'') :
    r = r' ∧ s' = s'' := by
  have hends : visited'[visited'.length]? = none := List.getElem?_eq_none (Nat.le_refl _)
  have hres : (c s visited'.length).result = some r' := by
    rw [h', hends]
    cases r' with
    | ok a => rfl
    | error e => rfl
  obtain ⟨hr, hs⟩ := h.eq_of_result hres
  rw [h'.state, hends] at hs
  exact ⟨hr, hs⟩

/-- The program returns `a` in `s'` after `k` operations, and `P` holds before each of them. -/
def Passes (c : Prog σ ε α) (s : σ) (k : ℕ) (P : σ → Prop) (a : α) (s' : σ) : Prop :=
  ∃ visited, Runs c s visited (.ok a) s' ∧ visited.length = k ∧ ∀ t ∈ visited, P t

section Passes

variable {P : σ → Prop} {a : α} {b : β} {k m : ℕ}

theorem passes_pure (a : α) : Passes (pure a : Prog σ ε α) s 0 P a s :=
  ⟨[], runs_pure a, rfl, nofun⟩

theorem passes_look (g : σ → α) : Passes (look g : Prog σ ε α) s 0 P (g s) s :=
  ⟨[], runs_look g, rfl, nofun⟩

theorem passes_op {g : σ → Except ε (α × σ)} (h : g s = .ok (a, s')) (hs : P s) :
    Passes (op g) s 1 P a s' :=
  ⟨[s], runs_op h, rfl, fun _ ht => List.mem_singleton.1 ht ▸ hs⟩

theorem Passes.bind (h : Passes c s k P a s') (hf : Passes (f a) s' m P b s'') :
    Passes (c >>= f) s (k + m) P b s'' := by
  obtain ⟨visited, hruns, hlen, hall⟩ := h
  obtain ⟨visited', hruns', hlen', hall'⟩ := hf
  refine ⟨visited ++ visited', hruns.bind hruns', ?_, fun t ht => ?_⟩
  · rw [List.length_append, hlen, hlen']
  · rcases List.mem_append.1 ht with ht | ht
    · exact hall t ht
    · exact hall' t ht

end Passes

end Prog

end Crash
