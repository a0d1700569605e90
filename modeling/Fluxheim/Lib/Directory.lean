import Mathlib.Logic.Function.Basic
import Mathlib.Data.Option.Basic
import Mathlib.Order.Basic

/-!
# A directory with hard links

Names are linked to files, and a file can have several names.  The operations are those of a POSIX
directory, each atomic; one that fails says why and has no effect.
-/

/-- Why an operation fails. -/
inductive DirError where
  | notFound
  | alreadyExists
  deriving DecidableEq

/-- A directory over the names `N`; the inodes in use are those below `next`. -/
structure Directory (N C : Type) where
  links : N → Option ℕ
  contents : ℕ → C
  next : ℕ
  bounded : ∀ n i, links n = some i → i < next

namespace Directory

open Function

variable {N C : Type}

/-- No names. -/
def empty [Inhabited C] : Directory N C :=
  ⟨fun _ => none, fun _ => default, 0, fun _ _ h => nomatch h⟩

/-- The contents of the file that a name is linked to. -/
def read (d : Directory N C) (n : N) : Option C := (d.links n).map d.contents

theorem read_eq_none {d : Directory N C} {n : N} : d.read n = none ↔ d.links n = none :=
  Option.map_eq_none_iff

section Frame

/-- The files of `d` are as they were. -/
structure Grown (d d' : Directory N C) : Prop where
  next_le : d.next ≤ d'.next
  contents : ∀ i < d.next, d'.contents i = d.contents i

/-- The files are as they were, and the names are, but for the given ones. -/
structure Within (names : List N) (d d' : Directory N C) : Prop where
  grown : Grown d d'
  links : ∀ n, n ∉ names → d'.links n = d.links n

/-- The name of a file that was not there in `d`. -/
def NewFile (d d' : Directory N C) (n : N) (c : C) : Prop :=
  ∃ i, d.next ≤ i ∧ d'.links n = some i ∧ d'.contents i = c

variable {d d' d'' : Directory N C} {n m : N} {c : C} {names names' : List N}

theorem Grown.refl (d : Directory N C) : Grown d d :=
  ⟨Nat.le_refl _, fun _ _ => rfl⟩

theorem Grown.trans (h : Grown d d') (h' : Grown d' d'') : Grown d d'' :=
  ⟨Nat.le_trans h.next_le h'.next_le, fun i hi =>
    (h'.contents i (Nat.lt_of_lt_of_le hi h.next_le)).trans (h.contents i hi)⟩

/-- A name of an old file reads what the file held. -/
theorem Grown.read (h : Grown d d') (hlink : d'.links m = d.links n) : d'.read m = d.read n := by
  unfold Directory.read
  rw [hlink]
  cases hi : d.links n with
  | none => rfl
  | some i => simp only [Option.map_some, h.contents i (d.bounded n i hi)]

theorem Within.refl (d : Directory N C) : Within names d d :=
  ⟨Grown.refl d, fun _ _ => rfl⟩

theorem Within.trans (h : Within names d d') (h' : Within names d' d'') : Within names d d'' :=
  ⟨h.grown.trans h'.grown, fun n hn => (h'.links n hn).trans (h.links n hn)⟩

theorem Within.mono (h : Within names d d') (hsub : names ⊆ names') : Within names' d d' :=
  ⟨h.grown, fun n hn => h.links n fun hmem => hn (hsub hmem)⟩

theorem Within.read (h : Within names d d') (hn : n ∉ names) : d'.read n = d.read n :=
  h.grown.read (h.links n hn)

theorem NewFile.read (h : NewFile d d' n c) : d'.read n = some c := by
  obtain ⟨i, -, hlink, hcont⟩ := h
  rw [Directory.read, hlink, Option.map_some, hcont]

theorem NewFile.links_ne_none (h : NewFile d d' n c) : d'.links n ≠ none := by
  obtain ⟨i, -, hlink, -⟩ := h
  rw [hlink]
  nofun

/-- A new file is none of the old ones. -/
theorem NewFile.links_ne (h : NewFile d d' n c) (m : N) : d'.links n ≠ d.links m := by
  obtain ⟨i, hnew, hlink, -⟩ := h
  intro hsame
  exact absurd (d.bounded m i (hsame.symm.trans hlink)) (Nat.not_lt.2 hnew)

theorem NewFile.of_grown (h : NewFile d d' n c) (hgrow : Grown d' d'')
    (hlink : d''.links m = d'.links n) : NewFile d d'' m c := by
  obtain ⟨i, hnew, hi, hcont⟩ := h
  exact ⟨i, hnew, hlink.trans hi, (hgrow.contents i (d'.bounded n i hi)).trans hcont⟩

theorem NewFile.mono (h : NewFile d' d'' n c) (hgrow : Grown d d') : NewFile d d'' n c := by
  obtain ⟨i, hnew, hi, hcont⟩ := h
  exact ⟨i, Nat.le_trans hgrow.next_le hnew, hi, hcont⟩

end Frame

variable [DecidableEq N]

/-- What a change of one link to an inode in use leaves bounded. -/
theorem bounded_update {links : N → Option ℕ} {next : ℕ} (h : ∀ n i, links n = some i → i < next)
    (n : N) {target : Option ℕ} (ht : ∀ i, target = some i → i < next) :
    ∀ m i, Function.update links n target m = some i → i < next := by
  intro m i hm
  by_cases hmn : m = n
  · subst hmn
    rw [update_self] at hm
    exact ht i hm
  · rw [update_of_ne hmn] at hm
    exact h m i hm

variable (d : Directory N C)

/-- A name is removed. -/
def unlink (n : N) : Directory N C :=
  ⟨Function.update d.links n none, d.contents, d.next, bounded_update d.bounded n nofun⟩

/-- The name linked to a new file, which no other name is linked to. -/
def addFile (n : N) (c : C) : Directory N C where
  links := Function.update d.links n (some d.next)
  contents := Function.update d.contents d.next c
  next := d.next + 1
  bounded := bounded_update (fun m i h => Nat.lt_succ_of_lt (d.bounded m i h)) n
    fun i h => by cases h; exact Nat.lt_succ_self _

/-- The name linked to what another name is linked to. -/
def addLink (source target : N) : Directory N C :=
  ⟨Function.update d.links target (d.links source), d.contents, d.next,
    bounded_update d.bounded target (d.bounded source)⟩

/-- `O_CREAT | O_EXCL`. -/
def create (n : N) (c : C) : Except DirError (Directory N C) :=
  if d.links n = none then .ok (d.addFile n c) else .error .alreadyExists

/-- New contents for the file, under all its names. -/
def overwrite (n : N) (c : C) : Except DirError (Directory N C) :=
  match d.links n with
  | none => .error .notFound
  | some i => .ok { d with contents := Function.update d.contents i c }

/-- A second name for a file. -/
def link (d : Directory N C) (source target : N) : Except DirError (Directory N C) :=
  if d.links source = none then .error .notFound
  else if d.links target = none then .ok (d.addLink source target)
  else .error .alreadyExists

/-- A name is moved onto another; nothing happens if both are names of one file. -/
def rename (source target : N) : Except DirError (Directory N C) :=
  if d.links source = none then .error .notFound
  else if d.links target = d.links source then .ok d
  else .ok ((d.addLink source target).unlink source)

variable {d} {d' : Directory N C} {n m source target : N} {c c' : C} {e : DirError}

theorem read_unlink : (d.unlink n).read m = if m = n then none else d.read m := by
  by_cases h : m = n
  · subst h
    simp [read, unlink]
  · simp [read, unlink, h]

theorem read_addLink :
    (d.addLink source target).read m = if m = target then d.read source else d.read m := by
  by_cases h : m = target
  · subst h
    simp [read, addLink]
  · simp [read, addLink, h]

theorem read_addFile : (d.addFile n c).read m = if m = n then some c else d.read m := by
  by_cases hm : m = n
  · subst hm
    simp [read, addFile]
  · simp only [read, addFile, update_of_ne hm, if_neg hm]
    cases hi : d.links m with
    | none => rfl
    | some i =>
      -- the other names are linked to files that were there before
      have hne : i ≠ d.next := Nat.ne_of_lt (d.bounded m i hi)
      simp [update_of_ne hne]

theorem create_eq_ok (h : d.create n c = .ok d') : d' = d.addFile n c := by
  unfold create at h
  split_ifs at h
  exact (Except.ok.inj h).symm

theorem create_error (h : d.create n c = .error e) : d.read n ≠ none := by
  unfold create at h
  split_ifs at h with hn
  rwa [ne_eq, read_eq_none]

/-- The new file, written once. -/
theorem overwrite_addFile (d : Directory N C) (n : N) (c c' : C) :
    ∃ d', (d.addFile n c).overwrite n c' = .ok d' ∧
      ∀ m, d'.read m = if m = n then some c' else d.read m := by
  refine ⟨{ d.addFile n c with contents := update (d.addFile n c).contents d.next c' },
    ?_, fun m => ?_⟩
  · simp only [overwrite, addFile, update_self]
  · by_cases hm : m = n
    · subst hm
      simp [read, addFile]
    · simp only [read, addFile, update_of_ne hm, if_neg hm]
      cases hi : d.links m with
      | none => rfl
      | some i =>
        have hne : i ≠ d.next := Nat.ne_of_lt (d.bounded m i hi)
        simp [update_of_ne hne]

theorem read_link (h : d.link source target = .ok d') :
    d.read target = none ∧ ∀ m, d'.read m = if m = target then d.read source else d.read m := by
  unfold link at h
  split_ifs at h with hs ht
  cases h
  exact ⟨read_eq_none.2 ht, fun m => read_addLink⟩

/-- A rename moves the file, or has no effect because both are names of it. -/
theorem read_rename (h : d.rename source target = .ok d') (hne : source ≠ target) :
    d.read source ≠ none ∧ d'.read target = d.read source ∧
      (∀ m, m ≠ source → m ≠ target → d'.read m = d.read m) ∧
      (d'.read source = none ∨ d' = d ∧ d.read target = d.read source) := by
  unfold rename at h
  split_ifs at h with hs hsame
  · cases h
    have hread : d.read target = d.read source := by simp only [read, hsame]
    exact ⟨mt read_eq_none.1 hs, hread, fun m _ _ => rfl, Or.inr ⟨rfl, hread⟩⟩
  · cases h
    refine ⟨mt read_eq_none.1 hs, ?_, fun m hm hm' => ?_, Or.inl ?_⟩
    · rw [read_unlink, if_neg hne.symm, read_addLink, if_pos rfl]
    · rw [read_unlink, if_neg hm, read_addLink, if_neg hm']
    · rw [read_unlink, if_pos rfl]

theorem rename_error (h : d.rename source target = .error e) : d.read source = none := by
  unfold rename at h
  split_ifs at h with hs
  exact read_eq_none.2 hs

theorem within_unlink (d : Directory N C) (n : N) : Within [n] d (d.unlink n) :=
  ⟨⟨Nat.le_refl _, fun _ _ => rfl⟩, fun _ hm =>
    update_of_ne (mt List.mem_singleton.2 hm) _ _⟩

theorem links_unlink_self (d : Directory N C) (n : N) : (d.unlink n).links n = none :=
  update_self _ _ _

theorem within_addLink (d : Directory N C) (source target : N) :
    Within [target] d (d.addLink source target) :=
  ⟨⟨Nat.le_refl _, fun _ _ => rfl⟩, fun _ hm =>
    update_of_ne (mt List.mem_singleton.2 hm) _ _⟩

theorem links_addLink_self (d : Directory N C) (source target : N) :
    (d.addLink source target).links target = d.links source :=
  update_self _ _ _

/-- A new file, and its contents when the write to it is complete. -/
theorem create_overwrite (h : d.links n = none) (c c' : C) :
    ∃ d₁ d₂, d.create n c = .ok d₁ ∧ d₁.overwrite n c' = .ok d₂ ∧ Within [n] d d₁ ∧
      Within [n] d d₂ ∧ NewFile d d₂ n c' := by
  have hlink : (d.addFile n c).links n = some d.next := update_self _ _ _
  have hin : Within [n] d (d.addFile n c) :=
    ⟨⟨Nat.le_succ _, fun i hi => update_of_ne (Nat.ne_of_lt hi) _ _⟩, fun _ hm =>
      update_of_ne (mt List.mem_singleton.2 hm) _ _⟩
  refine ⟨d.addFile n c,
    { d.addFile n c with contents := update (d.addFile n c).contents d.next c' },
    if_pos h, ?_, hin, ⟨⟨hin.grown.next_le, fun i hi => ?_⟩, hin.links⟩,
    ⟨d.next, Nat.le_refl _, hlink, update_self _ _ _⟩⟩
  · simp only [overwrite, hlink]
  · exact (update_of_ne (Nat.ne_of_lt hi) _ _).trans (hin.grown.contents i hi)

/-- A rename between two names of one file. -/
theorem rename_same (h : d.links source ≠ none) (hsame : d.links target = d.links source) :
    d.rename source target = .ok d := by
  rw [rename, if_neg h, if_pos hsame]

/-- A rename between names of different files. -/
theorem rename_move (h : d.links source ≠ none) (hother : d.links target ≠ d.links source) :
    ∃ d', d.rename source target = .ok d' ∧ Within [source, target] d d' ∧
      d'.links target = d.links source ∧ d'.links source = none := by
  have hne : target ≠ source := fun heq => hother (heq ▸ rfl)
  refine ⟨(d.addLink source target).unlink source, ?_, ?_, ?_, links_unlink_self _ _⟩
  · rw [rename, if_neg h, if_neg hother]
  · exact ((within_addLink d source target).mono (by simp)).trans
      ((within_unlink _ source).mono (by simp))
  · rw [(within_unlink _ source).links target (by simpa using hne), links_addLink_self]

end Directory
