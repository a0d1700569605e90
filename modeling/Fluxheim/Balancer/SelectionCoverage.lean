import Fluxheim.Balancer.SelectionSafety

/-!
# When the passes find nobody

Round robin and the three algorithms that look for the lowest score take a candidate whenever a pass
has one (`TakesAny`).  So they fail together, and the passes fail when the pool is shut out: no
eligible member within reach of the lowest priority group is a primary, and slow start says no each
time it is asked about an eligible member.
-/

namespace Fluxheim.Balancer

open List Cascade

namespace SelectionContext

variable (context : SelectionContext)

/-- Ready, not taken out of use, not ejected, and under its limit. -/
structure Available (backend : FluxBackend) : Prop where
  member : backend ∈ context.snapshot.backends
  ready : context.snapshot.ready backend = true
  enabled : context.backendPolicy.isDisabled (backendKey backend) = false
  undrained : context.backendPolicy.isDrained (backendKey backend) = false
  not_ejected : ∀ health ∈ context.passiveHealth, health.isEjected context.now backend = false
  under_limit : ∀ limit ∈ context.backendPolicy.maxInFlight.lookup (backendKey backend),
    context.counters.count backend < limit

/-- As available, but an ejected member counts while passive health has too few others. -/
structure Eligible (backend : FluxBackend) : Prop where
  member : backend ∈ context.snapshot.backends
  admitted : context.admits floorPass backend = true
  healthy : context.passiveHealthCandidateAllowed backend = true

/-- The priority of the member reaches the lowest group in use. -/
def InReach (backend : FluxBackend) : Prop :=
  ∀ lowest ∈ context.backendPolicy.priorityGroups.getLast?,
    lowest ≤ (context.backendPolicy.priority.lookup (backendKey backend)).getD 0

/-- Those slow start is asked about in a pass. -/
def asked (pass : SelectionPass) : List FluxBackend :=
  context.snapshot.backends.filter (context.admits pass)

/-- What slow start answers in the course of the passes, as long as nobody is taken. -/
def slowStartAnswers : List SelectionPass → Option SlowStartState → List (FluxBackend × Bool)
  | [], _ => []
  | pass :: passes, slowStart =>
    if context.priorityActivationSatisfied pass slowStart && !pass.ignoreSlowStart then
      Cascade.answers (slowStartPermits context.now) (context.asked pass) slowStart ++
        slowStartAnswers passes
          (Cascade.after (slowStartPermits context.now) (context.asked pass) slowStart)
    else slowStartAnswers passes slowStart

/-- Every eligible member within reach is a backup, and slow start never lets an eligible member
in. -/
structure ShutOut (slowStart : Option SlowStartState) : Prop where
  backups : ∀ backend, context.Eligible backend → context.InReach backend →
    backendKey backend ∈ context.backendPolicy.backup
  refused : ∀ backend, context.Eligible backend →
    (backend, true) ∉ context.slowStartAnswers context.backendPolicy.selectionPasses slowStart

variable {context} {pass : SelectionPass} {backend : FluxBackend} {s : SelectionState}

/-- What a pass asks beyond eligibility. -/
theorem admits_iff : context.admits pass backend = true ↔
    context.admits floorPass backend = true ∧
      (pass.allowBackup = true ∨ backendKey backend ∉ context.backendPolicy.backup) ∧
      (∀ group ∈ pass.minimumPriorityGroup,
        group ≤ (context.backendPolicy.priority.lookup (backendKey backend)).getD 0) ∧
      context.backendPolicy.localityPermits (backendKey backend) pass = true := by
  simp only [admits, BackendSelectionPolicy.permits, floorPass,
    BackendSelectionPolicy.localityPermits, Bool.and_eq_true, Bool.or_eq_true, Option.all_eq_true,
    decide_eq_true_eq, Bool.not_eq_true']
  tauto

theorem backendCandidateAllowed_eq_guarded (h : pass.ignoreSlowStart = false) :
    context.backendCandidateAllowed pass =
      Cascade.guarded (context.admits pass) context.passiveHealthCandidateAllowed
        (slowStartPermits context.now) := by
  funext backend slow
  cases hb : context.admits pass backend <;>
    simp [backendCandidateAllowed, backendCandidateBaseAllowed, guarded, h, hb]

variable (backends : List FluxBackend)

theorem answers_allowed :
    Cascade.answers (context.allowed pass) backends s =
      Cascade.answers (context.backendCandidateAllowed pass) backends s.slowStart := by
  induction backends generalizing s with
  | nil => rfl
  | cons b backends ih => rw [answers, ih]; rfl

theorem after_allowed :
    Cascade.after (context.allowed pass) backends s =
      { s with slowStart :=
          Cascade.after (context.backendCandidateAllowed pass) backends s.slowStart } := by
  induction backends generalizing s with
  | nil => rfl
  | cons b backends ih => rw [after_cons, ih]; rfl

/-- A pass without slow start leaves the state as it is, and lets in every member it admits. -/
theorem backendCandidateAllowed_ignoring (h : pass.ignoreSlowStart = true)
    (slow : Option SlowStartState) :
    context.backendCandidateAllowed pass backend slow =
      (context.admits pass backend && context.passiveHealthCandidateAllowed backend,
        slow) := by
  cases hb : context.admits pass backend <;>
    simp [backendCandidateAllowed, backendCandidateBaseAllowed, h, hb]

theorem answers_ignoring (h : pass.ignoreSlowStart = true) (backends : List FluxBackend)
    (slow : Option SlowStartState) :
    Cascade.answers (context.backendCandidateAllowed pass) backends slow =
      backends.map fun b => (b, context.admits pass b && context.passiveHealthCandidateAllowed b)
    := by
  induction backends with
  | nil => rfl
  | cons b backends ih =>
    rw [answers, backendCandidateAllowed_ignoring h, ih, map_cons]

theorem after_ignoring (h : pass.ignoreSlowStart = true) (backends : List FluxBackend)
    (slowStart : Option SlowStartState) :
    Cascade.after (context.backendCandidateAllowed pass) backends slowStart = slowStart := by
  induction backends with
  | nil => rfl
  | cons b backends ih =>
    rw [after_cons, backendCandidateAllowed_ignoring h]
    exact ih

/-- A pass fails only if nobody passes, and then it has asked everybody. -/
structure TakesAny (context : SelectionContext) (withBackupPolicy : SelectionPass → Choice) :
    Prop where
  none_iff : ∀ pass s, (withBackupPolicy pass s).1 = none ↔
    (Cascade.filter (context.allowed pass) context.snapshot.backends s).1 = []
  after_none : ∀ pass s, (withBackupPolicy pass s).1 = none →
    (withBackupPolicy pass s).2 =
      Cascade.after (context.allowed pass) context.snapshot.backends s

variable {candidates : List (FluxBackend × ℕ)}

theorem weightedCandidate_ne_none {target : ℕ}
    (h : target < (candidates.map Prod.snd).sum) : weightedCandidate candidates target ≠ none := by
  induction candidates generalizing target with
  | nil => simp at h
  | cons c candidates ih =>
    rw [weightedCandidate]
    split_ifs with hlt
    · exact Option.some_ne_none _
    · apply ih
      rw [map_cons, sum_cons] at h
      omega

/-- The total that stops at the largest number is at most the sum, and at least its start. -/
theorem saturatingTotal_bounds (candidates : List (FluxBackend × ℕ)) {start : ℕ}
    (hstart : start ≤ USIZE_MAX) :
    start ≤ candidates.foldl (fun total c => min USIZE_MAX (total + c.2)) start ∧
      candidates.foldl (fun total c => min USIZE_MAX (total + c.2)) start ≤
        start + (candidates.map Prod.snd).sum := by
  induction candidates generalizing start with
  | nil => simp
  | cons c candidates ih =>
    obtain ⟨hlow, hhigh⟩ := ih (min_le_left USIZE_MAX (start + c.2))
    rw [foldl_cons, map_cons, sum_cons]
    constructor
    · exact le_trans (le_min hstart (Nat.le_add_right _ _)) hlow
    · omega

theorem saturatingTotal_pos (hne : candidates ≠ []) (hpos : ∀ c ∈ candidates, 0 < c.2) :
    0 < candidates.foldl (fun total c => min USIZE_MAX (total + c.2)) 0 := by
  obtain ⟨c, candidates, rfl⟩ := exists_cons_of_ne_nil hne
  have hc : 0 < min USIZE_MAX (0 + c.2) := by
    have := hpos c mem_cons_self
    exact lt_min (by decide) (by omega)
  exact lt_of_lt_of_le hc (saturatingTotal_bounds candidates (min_le_left _ _)).1

theorem takesAny_weightedRoundRobin :
    context.TakesAny context.selectWeightedRoundRobinWithBackupPolicy := by
  have key : ∀ pass s, (context.selectWeightedRoundRobinWithBackupPolicy pass s).1 = none →
      (filter (context.allowed pass) context.snapshot.backends s).1 = [] := by
    intro pass s h
    by_contra hne
    rw [selectWeightedRoundRobinWithBackupPolicy] at h
    split_ifs at h with htotal
    · refine (saturatingTotal_pos (by simpa using hne) ?_).ne' htotal
      intro c hc
      obtain ⟨b, -, rfl⟩ := mem_map.1 hc
      exact context.backendPolicy.effectiveWeight_pos b
    · -- the cursor falls into the weight of one of them
      refine weightedCandidate_ne_none ?_ h
      refine lt_of_lt_of_le (Nat.mod_lt _ (pos_of_ne_zero htotal)) ?_
      exact (saturatingTotal_bounds _ (Nat.zero_le _)).2.trans_eq (zero_add _)
  have hnone : ∀ pass s,
      (filter (context.allowed pass) context.snapshot.backends s).1 = [] →
      context.selectWeightedRoundRobinWithBackupPolicy pass s =
        (none, after (context.allowed pass) context.snapshot.backends s) := by
    intro pass s h
    simp [selectWeightedRoundRobinWithBackupPolicy, h, filter_snd]
  exact ⟨fun pass s => ⟨key pass s, fun h => by rw [hnone pass s h]⟩,
    fun pass s h => by rw [hnone pass s (key pass s h)]⟩

theorem leastLoop_spec {γ : Type} {test : FluxBackend → SelectionState → Bool × SelectionState}
    {score : FluxBackend → γ} {isLower : γ → γ → Bool} (backends : List FluxBackend)
    (selected : Option (FluxBackend × γ)) :
    ((leastLoop test score isLower backends selected s).1 = none ↔
      selected = none ∧ (Cascade.filter test backends s).1 = []) ∧
    (leastLoop test score isLower backends selected s).2 = Cascade.after test backends s := by
  induction backends generalizing selected s with
  | nil => simp [leastLoop, Cascade.filter]
  | cons b backends ih =>
    rw [leastLoop, Cascade.filter]
    refine ⟨?_, (ih _).2⟩
    rw [(ih _).1]
    -- the first that passes is the best until another beats it
    cases hb : (test b s).1 with
    | false => simp
    | true =>
      cases selected with
      | none => simp
      | some best => split_ifs <;> simp

theorem takesAny_least {γ : Type} (score : FluxBackend → γ) (isLower : γ → γ → Bool) :
    context.TakesAny (context.selectLeastWithBackupPolicy score isLower) where
  none_iff pass s := by
    rw [selectLeastWithBackupPolicy, (leastLoop_spec _ _).1]
    exact and_iff_right rfl
  after_none pass s _ := (leastLoop_spec _ _).2

variable {withBackupPolicy : SelectionPass → Choice}

theorem priorityActivationSatisfied_ignoring (h : pass.ignoreSlowStart = true)
    (slow : Option SlowStartState) :
    context.priorityActivationSatisfied pass slow =
      context.priorityActivationSatisfied pass none := by
  have htest : context.backendCandidateAllowedReadOnly pass slow =
      context.backendCandidateAllowedReadOnly pass none := by
    funext b
    simp [backendCandidateAllowedReadOnly, backendCandidateBaseAllowedReadOnly, h]
  rw [priorityActivationSatisfied, priorityActivationSatisfied, htest]

/-- A pass that slow start is left out of fails if it admits nobody. -/
theorem pass_none_iff_of_ignoring (htakes : context.TakesAny withBackupPolicy)
    (h : pass.ignoreSlowStart = true) : (withBackupPolicy pass s).1 = none ↔
      ∀ b ∈ context.snapshot.backends, ¬ (context.admits pass b = true ∧
        context.passiveHealthCandidateAllowed b = true) := by
  rw [htakes.none_iff, Cascade.filter_eq_nil_iff, answers_allowed, answers_ignoring h]
  simp

/-- A pass with slow start fails if slow start lets nobody in that passive health lets in. -/
theorem pass_none_iff_of_asking (htakes : context.TakesAny withBackupPolicy)
    (h : pass.ignoreSlowStart = false) : (withBackupPolicy pass s).1 = none ↔
      ∀ b, context.passiveHealthCandidateAllowed b = true →
        (b, true) ∉ Cascade.answers (slowStartPermits context.now) (context.asked pass)
          s.slowStart := by
  rw [htakes.none_iff, Cascade.filter_eq_nil_iff, answers_allowed,
    backendCandidateAllowed_eq_guarded h]
  simp only [mem_answers_guarded, asked, not_and]
  exact forall_congr' fun b => ⟨fun hb hhealthy hmem => hb hmem hhealthy, fun hb hmem hhealthy =>
    hb hhealthy hmem⟩

theorem passes_none_iff (htakes : context.TakesAny withBackupPolicy) (passes : List SelectionPass) :
    (Cascade.firstSome
      (fun pass s =>
        if !context.priorityActivationSatisfied pass s.slowStart then (none, s)
        else withBackupPolicy pass s) passes s).1 = none ↔
      (∀ pass ∈ passes, pass.ignoreSlowStart = true →
        context.priorityActivationSatisfied pass none = true →
          ∀ b ∈ context.snapshot.backends, ¬ (context.admits pass b = true ∧
            context.passiveHealthCandidateAllowed b = true)) ∧
      ∀ b, context.passiveHealthCandidateAllowed b = true →
        (b, true) ∉ context.slowStartAnswers passes s.slowStart := by
  induction passes generalizing s with
  | nil => simp [slowStartAnswers]
  | cons pass passes ih =>
    rw [firstSome_cons_eq_none_iff, forall_mem_cons, slowStartAnswers]
    cases hact : context.priorityActivationSatisfied pass s.slowStart with
    | false =>
      -- the pass is skipped, and says nothing of its members
      have hskip : pass.ignoreSlowStart = true →
          context.priorityActivationSatisfied pass none = true →
            ∀ b ∈ context.snapshot.backends, ¬ (context.admits pass b = true ∧
              context.passiveHealthCandidateAllowed b = true) := by
        intro hignore hnone
        rw [← priorityActivationSatisfied_ignoring hignore s.slowStart, hact] at hnone
        exact absurd hnone Bool.false_ne_true
      simp only [Bool.not_false, if_true, true_and, Bool.false_and, Bool.false_eq_true, if_false]
      rw [ih, and_iff_right hskip]
    | true =>
      simp only [Bool.not_true, Bool.false_eq_true, if_false, Bool.true_and]
      cases hignore : pass.ignoreSlowStart with
      | true =>
        have hnone : context.priorityActivationSatisfied pass none = true := by
          rw [← priorityActivationSatisfied_ignoring hignore s.slowStart, hact]
        simp only [Bool.not_true, Bool.false_eq_true, if_false, hnone, true_imp_iff, and_assoc]
        rw [← pass_none_iff_of_ignoring htakes hignore]
        refine and_congr_right fun hfail => ?_
        rw [htakes.after_none pass s hfail, after_allowed, after_ignoring hignore, ih]
      | false =>
        simp only [Bool.not_false, if_true, Bool.false_eq_true, false_imp_iff, true_and,
          mem_append, not_or]
        have hrest : (withBackupPolicy pass s).1 = none → (withBackupPolicy pass s).2 =
            { s with slowStart :=
                after (slowStartPermits context.now) (context.asked pass) s.slowStart } := by
          intro hfail
          rw [htakes.after_none pass s hfail, after_allowed,
            backendCandidateAllowed_eq_guarded hignore, after_guarded, asked]
        constructor
        · rintro ⟨hfail, hnone⟩
          rw [hrest hfail, ih] at hnone
          exact ⟨hnone.1, fun b hb =>
            ⟨(pass_none_iff_of_asking htakes hignore).1 hfail b hb, hnone.2 b hb⟩⟩
        · rintro ⟨hpass, hans⟩
          have hfail := (pass_none_iff_of_asking htakes hignore).2 fun b hb => (hans b hb).1
          refine ⟨hfail, ?_⟩
          rw [hrest hfail, ih]
          exact ⟨hpass, fun b hb => (hans b hb).2⟩

variable {passes : List SelectionPass}

/-- Who gets an answer is asked in one of the passes. -/
theorem exists_asked_of_mem_slowStartAnswers {slow : Option SlowStartState} {yes : Bool}
    (h : (backend, yes) ∈ context.slowStartAnswers passes slow) :
    ∃ pass ∈ passes, backend ∈ context.snapshot.backends ∧
      context.admits pass backend = true := by
  induction passes generalizing slow with
  | nil => simp [slowStartAnswers] at h
  | cons pass passes ih =>
    have hlat : ∀ {slow}, (backend, yes) ∈ context.slowStartAnswers passes slow →
        ∃ pass' ∈ pass :: passes, backend ∈ context.snapshot.backends ∧
          context.admits pass' backend = true := by
      intro slow h
      obtain ⟨pass', hpass, hask⟩ := ih h
      exact ⟨pass', mem_cons_of_mem _ hpass, hask⟩
    rw [slowStartAnswers] at h
    split_ifs at h
    · rcases mem_append.1 h with h | h
      · exact ⟨pass, mem_cons_self, mem_filter.1 (mem_of_mem_answers h)⟩
      · exact hlat h
    · exact hlat h

variable {allowBackup ignoreSlowStart : Bool} {policy : BackendSelectionPolicy}

theorem lowest_le_of_mem_priorityGroups {group lowest : ℕ}
    (hgroup : group ∈ policy.priorityGroups) (hlow : lowest ∈ policy.priorityGroups.getLast?) :
    lowest ≤ group := by
  rw [policy.priorityGroups_eq, sortedPriorityGroups] at hgroup hlow
  rw [mem_reverse] at hgroup
  have hsorted := (policy.priority.entries.map Sigma.snd).toFinset.pairwise_sort (· ≤ ·)
  cases hl : (policy.priority.entries.map Sigma.snd).toFinset.sort (· ≤ ·) with
  | nil => simp [hl] at hlow
  | cons a l =>
    rw [hl] at hsorted hgroup hlow
    obtain rfl : a = lowest := by simpa using hlow
    rcases mem_cons.1 hgroup with rfl | hmem
    · exact le_rfl
    · exact rel_of_pairwise_cons hsorted hmem

theorem mem_selectionPasses :
    pass ∈ policy.selectionPasses ↔
      (pass.ignoreLocality = true → policy.preferredLocalities ≠ ∅) ∧
      (pass.allowBackup = true → pass.ignoreSlowStart = false) ∧
      pass.minimumPriorityGroup ∈ policy.selectionPriorityGroups := by
  obtain ⟨group, allowBackup, ignoreSlowStart, ignoreLocality⟩ := pass
  cases ignoreLocality <;> cases allowBackup <;> cases ignoreSlowStart <;>
    simp [BackendSelectionPolicy.selectionPasses]

/-- A priority group of a pass is within the lowest group's reach. -/
theorem inReach_of_admits (hpass : pass ∈ context.backendPolicy.selectionPasses)
    (h : context.admits pass backend = true) : context.InReach backend := by
  intro lowest hlow
  have hgroup := (mem_selectionPasses.1 hpass).2.2
  rw [BackendSelectionPolicy.selectionPriorityGroups] at hgroup
  split_ifs at hgroup with hempty
  · simp [hempty] at hlow
  · obtain ⟨group, hmem, heq⟩ := mem_map.1 hgroup
    exact le_trans (lowest_le_of_mem_priorityGroups hmem hlow)
      ((admits_iff.1 h).2.2.1 group heq.symm)

/-- The pass for the lowest group, in every locality. -/
def lastPass (policy : BackendSelectionPolicy) (allowBackup ignoreSlowStart : Bool) :
    SelectionPass where
  minimumPriorityGroup := policy.priorityGroups.getLast?
  allowBackup := allowBackup
  ignoreSlowStart := ignoreSlowStart
  ignoreLocality := policy.preferredLocalities ≠ ∅

theorem lastPass_mem (h : allowBackup = true → ignoreSlowStart = false) :
    lastPass policy allowBackup ignoreSlowStart ∈ policy.selectionPasses := by
  rw [mem_selectionPasses]
  refine ⟨by simp [lastPass], h, ?_⟩
  rw [BackendSelectionPolicy.selectionPriorityGroups, lastPass]
  split_ifs with hempty
  · simp [hempty]
  · rw [getLast?_eq_some_getLast hempty]
    exact mem_map_of_mem (getLast_mem hempty)

theorem lastPass_active (slow : Option SlowStartState) :
    context.priorityActivationSatisfied
      (lastPass context.backendPolicy allowBackup ignoreSlowStart) slow = true := by
  have hlow : context.backendPolicy.priorityGroups.getLast?.isNone = true ∨
      context.backendPolicy.priorityGroups.getLast?.any
        context.backendPolicy.isLowestPriorityGroup = true := by
    cases hlast : context.backendPolicy.priorityGroups.getLast? with
    | none => exact Or.inl rfl
    | some lowest => simp [BackendSelectionPolicy.isLowestPriorityGroup, hlast]
  exact if_pos (by rcases hlow with h | h <;> simp [lastPass, h])

/-- The last pass admits every member within reach, backups only if it allows them. -/
theorem admits_lastPass (helig : context.Eligible backend) (hreach : context.InReach backend)
    (hbak : allowBackup = true ∨ backendKey backend ∉ context.backendPolicy.backup) :
    context.admits (lastPass context.backendPolicy allowBackup ignoreSlowStart) backend = true := by
  rw [admits_iff]
  refine ⟨helig.admitted, hbak, hreach, ?_⟩
  rw [BackendSelectionPolicy.localityPermits, lastPass]
  by_cases hempty : context.backendPolicy.preferredLocalities = ∅ <;> simp [hempty]

/-- The passes without slow start find nobody if every eligible member within reach is a backup. -/
theorem ignoring_passes_none_iff :
    (∀ pass ∈ context.backendPolicy.selectionPasses, pass.ignoreSlowStart = true →
      context.priorityActivationSatisfied pass none = true →
        ∀ b ∈ context.snapshot.backends, ¬ (context.admits pass b = true ∧
          context.passiveHealthCandidateAllowed b = true)) ↔
      ∀ b, context.Eligible b → context.InReach b →
        backendKey b ∈ context.backendPolicy.backup := by
  constructor
  · intro h b helig hreach
    by_contra hprimary
    exact h (lastPass context.backendPolicy false true) (lastPass_mem (by simp)) rfl
      (lastPass_active none) b helig.member
      ⟨admits_lastPass helig hreach (Or.inr hprimary), helig.healthy⟩
  · rintro h pass hpass hignore - b hmem ⟨hadmits, hhealthy⟩
    obtain ⟨hfloor, hbak, -, -⟩ := admits_iff.1 hadmits
    have hkey := h b ⟨hmem, hfloor, hhealthy⟩ (inReach_of_admits hpass hadmits)
    -- a pass without slow start has no backups
    have hallow : pass.allowBackup = false := by
      by_contra hallow
      rw [Bool.not_eq_false] at hallow
      rw [(mem_selectionPasses.1 hpass).2.1 hallow] at hignore
      exact Bool.false_ne_true hignore
    rcases hbak with hbak | hbak
    · rw [hallow] at hbak
      exact Bool.false_ne_true hbak
    · exact hbak hkey

/-- **The passes find nobody exactly if the pool is shut out.** -/
theorem overPasses_eq_none_iff (htakes : context.TakesAny withBackupPolicy) :
    (context.overPasses withBackupPolicy s).1 = none ↔ context.ShutOut s.slowStart := by
  rw [overPasses, passes_none_iff htakes, ignoring_passes_none_iff]
  constructor
  · rintro ⟨hbackup, href⟩
    exact ⟨hbackup, fun b hb => href b hb.healthy⟩
  · rintro ⟨hbackup, href⟩
    refine ⟨hbackup, fun b hhealthy hyes => ?_⟩
    obtain ⟨pass, -, hmem, hadmits⟩ := exists_asked_of_mem_slowStartAnswers hyes
    exact href b ⟨hmem, (admits_iff.1 hadmits).1, hhealthy⟩ hyes

/-- Without slow start every question is answered yes. -/
theorem mem_answers_none {backends : List FluxBackend} (h : backend ∈ backends) :
    (backend, true) ∈ Cascade.answers (slowStartPermits context.now) backends none := by
  induction backends with
  | nil => simp at h
  | cons b backends ih =>
    rcases mem_cons.1 h with rfl | h
    · exact mem_cons_self
    · exact mem_cons_of_mem _ (ih h)

theorem after_slowStartPermits_none :
    Cascade.after (slowStartPermits context.now) backends none = none := by
  induction backends with
  | nil => rfl
  | cons b backends ih => exact ih

theorem mem_slowStartAnswers_none (hpass : pass ∈ passes)
    (hact : context.priorityActivationSatisfied pass none = true)
    (hasks : pass.ignoreSlowStart = false) (hask : backend ∈ context.asked pass) :
    (backend, true) ∈ context.slowStartAnswers passes none := by
  induction passes with
  | nil => simp at hpass
  | cons first passes ih =>
    rw [slowStartAnswers, after_slowStartPermits_none]
    rcases mem_cons.1 hpass with rfl | hpass
    · rw [hact, hasks]
      exact mem_append_left _ (mem_answers_none hask)
    · split_ifs
      · exact mem_append_right _ (ih hpass)
      · exact ih hpass

/-- Without slow start a pool is shut out if none of its eligible members is within reach. -/
theorem shutOut_none_iff :
    context.ShutOut none ↔ ∀ b, context.Eligible b → ¬ context.InReach b := by
  constructor
  · intro hout b helig hreach
    have hask : b ∈ context.asked (lastPass context.backendPolicy true false) :=
      mem_filter.2 ⟨helig.member, admits_lastPass helig hreach (Or.inl rfl)⟩
    exact hout.refused b helig
      (mem_slowStartAnswers_none (lastPass_mem fun _ => rfl) (lastPass_active none) rfl hask)
  · intro h
    refine ⟨fun b helig hreach => absurd hreach (h b helig), ?_⟩
    intro b helig hyes
    obtain ⟨pass, hpass, -, hadmits⟩ := exists_asked_of_mem_slowStartAnswers hyes
    exact h b helig (inReach_of_admits hpass hadmits)

/-- **An available pool is never reported empty, by any of the four algorithms, exactly if it is
not shut out.** -/
theorem available_pool_covered_iff (context : SelectionContext) (s : SelectionState)
    (persistenceEntryCounts : AList fun _ : Key => ℕ) (latency : BackendLatencyState) :
    ((∃ backend, context.Available backend) →
      (context.selectWeightedRoundRobin s).1.isSome ∧
      (context.selectLeastConnections s).1.isSome ∧
      (context.selectLeastSessions persistenceEntryCounts s).1.isSome ∧
      (context.selectLeastTime latency s).1.isSome) ↔
    ((∃ backend, context.Available backend) → ¬ context.ShutOut s.slowStart) := by
  have hsome : ∀ {withBackupPolicy : SelectionPass → Choice},
      context.TakesAny withBackupPolicy →
        ((context.overPasses withBackupPolicy s).1.isSome ↔ ¬ context.ShutOut s.slowStart) := by
    intro withBackupPolicy htakes
    rw [← overPasses_eq_none_iff htakes, Option.isSome_iff_ne_none]
  rw [selectWeightedRoundRobin, selectLeastConnections, selectLeastSessions, selectLeastTime,
    hsome takesAny_weightedRoundRobin, hsome (takesAny_least _ _), hsome (takesAny_least _ _),
    hsome (takesAny_least _ _)]
  simp only [and_self]

/-- **Without slow start each of the four algorithms finds a backend exactly if an eligible one is
within reach.** -/
theorem selected_without_slowStart_iff (context : SelectionContext) (s : SelectionState)
    (persistenceEntryCounts : AList fun _ : Key => ℕ) (latency : BackendLatencyState) :
    let steady := { s with slowStart := none }
    let found := ∃ backend, context.Eligible backend ∧ context.InReach backend
    ((context.selectWeightedRoundRobin steady).1.isSome ↔ found) ∧
      ((context.selectLeastConnections steady).1.isSome ↔ found) ∧
      ((context.selectLeastSessions persistenceEntryCounts steady).1.isSome ↔ found) ∧
      ((context.selectLeastTime latency steady).1.isSome ↔ found) := by
  intro steady found
  have hsome {withBackupPolicy : SelectionPass → Choice}
      (htakes : context.TakesAny withBackupPolicy) :
      (context.overPasses withBackupPolicy steady).1.isSome ↔ found := by
    rw [Option.isSome_iff_ne_none, Ne, overPasses_eq_none_iff htakes, shutOut_none_iff]
    simp only [not_forall, not_not, exists_prop, found]
  exact ⟨hsome takesAny_weightedRoundRobin, hsome (takesAny_least _ _), hsome (takesAny_least _ _),
    hsome (takesAny_least _ _)⟩

/-- A pool of one backend at a given time. -/
def loneContext (policy : BackendSelectionPolicy) : SelectionContext where
  snapshot := ⟨[UpstreamLoadBalancer.loneBackend], ∅, false⟩
  passiveHealth := none
  counters := fun _ => 0
  backendPolicy := policy
  now := 0

/-- The only backend is a backup. -/
def backupPolicy : BackendSelectionPolicy :=
  { UpstreamLoadBalancer.plainPolicy with
    backup := {backendKey UpstreamLoadBalancer.loneBackend} }

/-- The configured member has priority one and is gone; the one added since has none. -/
def priorityPolicy : BackendSelectionPolicy :=
  { UpstreamLoadBalancer.plainPolicy with
    priority := AList.singleton 0 1
    priorityGroups := [1]
    priorityGroups_eq := by decide +kernel }

/-- A minute of slow start that has just begun. -/
def startingState : SelectionState where
  slowStart := some ⟨60, ∅, 0⟩
  roundRobinCursor := 0
  entropy := fun _ => 0

/-- No slow start and no randomness. -/
def steadyState : SelectionState where
  slowStart := none
  roundRobinCursor := 0
  entropy := fun _ => 0

theorem available_pool_reported_empty :
    ((∃ backend, (loneContext backupPolicy).Available backend) ∧
      ((loneContext backupPolicy).selectWeightedRoundRobin startingState).1 = none ∧
      ((loneContext backupPolicy).selectLeastConnections startingState).1 = none) ∧
    ((∃ backend, (loneContext priorityPolicy).Available backend) ∧
      ((loneContext priorityPolicy).selectWeightedRoundRobin steadyState).1 = none ∧
      ((loneContext priorityPolicy).selectLeastConnections steadyState).1 = none) := by
  have havail : ∀ policy : BackendSelectionPolicy,
      policy.isDisabled (backendKey UpstreamLoadBalancer.loneBackend) = false →
      policy.isDrained (backendKey UpstreamLoadBalancer.loneBackend) = false →
      policy.maxInFlight = ∅ →
      (loneContext policy).Available UpstreamLoadBalancer.loneBackend := by
    intro policy hen hactive hlimit
    refine ⟨mem_singleton_self _, ?_, hen, hactive, ?_, ?_⟩
    · simp [loneContext, BackendContainerSnapshot.ready]
    · simp [loneContext]
    · simp [loneContext, hlimit]
  refine ⟨⟨⟨_, havail backupPolicy (by decide +kernel) (by decide +kernel) rfl⟩,
    by decide +kernel, by decide +kernel⟩,
    ⟨⟨_, havail priorityPolicy (by decide +kernel) (by decide +kernel) rfl⟩,
    by decide +kernel, by decide +kernel⟩⟩

end SelectionContext

end Fluxheim.Balancer
