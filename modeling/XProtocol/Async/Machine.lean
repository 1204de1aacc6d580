import XProtocol.Async.Program

/-! Machines and runs.

A machine says what each operation does to a world, given what the environment
chooses there (whether a timer fires, how much of a stream has arrived, which
error comes back); a task whose operation cannot be performed in the current
world waits. A configuration is a world and a list of tasks, and a run is a list
of labels: which task moves, and what the environment chooses.

`run_safe` is the induction over runs, done once. Given an invariant of the world
and of every task's knowledge that each single operation upholds (`Upheld`),
every run from tasks that are safe ends in tasks that are safe. The steps of a
run may be restricted (`Along`), and then only those steps have to uphold it. -/
namespace Async

/-- What performing operation `o` for task `t` does, under the environment's
choice; `none` when it cannot be performed now. -/
structure Machine (E : Interface) (W C : Type) where
  perform : Nat → (o : E.Op) → C → W → Option (E.Ret o × W)

structure Config (E : Interface) (W α : Type) where
  world : W
  tasks : List (Program E α)

variable {E : Interface} {W C G α : Type}

/-- One operation of one program. -/
def Program.step (M : Machine E W C) (t : Nat) (c : C) : Program E α → W → Option (Program E α × W)
  | .done _, _ => none
  | .perform o k, w => (M.perform t o c w).map fun x => (k x.1, x.2)

namespace Config

/-- Task `t` moves, the environment choosing `c`. -/
def step (M : Machine E W C) (s : Config E W α) (l : Nat × C) : Option (Config E W α) :=
  match s.tasks[l.1]? with
  | none => none
  | some p => (p.step M l.1 l.2 s.world).map fun x => ⟨x.2, s.tasks.set l.1 x.1⟩

def run (M : Machine E W C) (s : Config E W α) : List (Nat × C) → Option (Config E W α)
  | [] => some s
  | l :: rest => (s.step M l).bind fun s' => s'.run M rest

/-- Every step of the run meets `P`. -/
def Along (M : Machine E W C) (P : Config E W α → Nat × C → Prop) (s : Config E W α) :
    List (Nat × C) → Prop
  | [] => True
  | l :: rest => P s l ∧ ∀ s', s.step M l = some s' → s'.Along M P rest

/-- The step performs an operation that meets `P`. -/
def Performs (P : W → Nat → E.Op → C → Prop) (s : Config E W α) (l : Nat × C) : Prop :=
  ∀ o k, s.tasks[l.1]? = some (.perform o k) → P s.world l.1 o l.2

/-- What task `t` has returned. -/
def returned (s : Config E W α) (t : Nat) : Option α :=
  match s.tasks[t]? with
  | some (.done a) => some a
  | _ => none

theorem step_eq_some {M : Machine E W C} {s s' : Config E W α} {t : Nat} {c : C}
    (h : s.step M (t, c) = some s') :
    ∃ o k r w, s.tasks[t]? = some (.perform o k) ∧ M.perform t o c s.world = some (r, w) ∧
      s' = ⟨w, s.tasks.set t (k r)⟩ := by
  unfold step at h
  cases hp : s.tasks[t]? with
  | none => simp [hp] at h
  | some p =>
    cases p with
    | done a => simp [hp, Program.step] at h
    | perform o k =>
      simp only [hp, Program.step, Option.map_map, Option.map_eq_some_iff] at h
      obtain ⟨⟨r, w⟩, hw, hs⟩ := h
      exact ⟨o, k, r, w, rfl, hw, hs.symm⟩

theorem step_perform {M : Machine E W C} {s : Config E W α} {t : Nat} {c : C} {o : E.Op}
    {k : E.Ret o → Program E α} {r : E.Ret o} {w : W} (hp : s.tasks[t]? = some (.perform o k))
    (hw : M.perform t o c s.world = some (r, w)) :
    s.step M (t, c) = some ⟨w, s.tasks.set t (k r)⟩ := by
  simp [step, hp, Program.step, hw]

theorem run_append (M : Machine E W C) (s : Config E W α) (a b : List (Nat × C)) :
    s.run M (a ++ b) = (s.run M a).bind fun s' => s'.run M b := by
  induction a generalizing s with
  | nil => rfl
  | cons l rest ih =>
    simp only [List.cons_append, run, ih]
    cases s.step M l <;> rfl

theorem run_cons {M : Machine E W C} {s s' : Config E W α} {l : Nat × C} {rest : List (Nat × C)}
    (h : s.run M (l :: rest) = some s') : ∃ m, s.step M l = some m ∧ m.run M rest = some s' :=
  Option.bind_eq_some_iff.mp h

/-- Anything every permitted step keeps, a run of permitted steps keeps. -/
theorem run_keeps {M : Machine E W C} {P : Config E W α → Nat × C → Prop} {I : Config E W α → Prop}
    (keep : ∀ s l s', I s → P s l → s.step M l = some s' → I s') {s s' : Config E W α}
    {ls : List (Nat × C)} (h : s.run M ls = some s') (hP : s.Along M P ls) (hI : I s) : I s' := by
  induction ls generalizing s with
  | nil =>
    cases h
    exact hI
  | cons l rest ih =>
    obtain ⟨m, hm, hrest⟩ := run_cons h
    exact ih hrest (hP.2 m hm) (keep s l m hI hP.1 hm)

theorem along_of_forall {M : Machine E W C} {P : Config E W α → Nat × C → Prop} (hP : ∀ s l, P s l)
    (s : Config E W α) (ls : List (Nat × C)) : s.Along M P ls := by
  induction ls generalizing s with
  | nil => trivial
  | cons l rest ih => exact ⟨hP s l, fun s' _ => ih s'⟩

theorem along_mono {M : Machine E W C} {P Q : Config E W α → Nat × C → Prop}
    (hPQ : ∀ s l, P s l → Q s l) {s : Config E W α} {ls : List (Nat × C)} (h : s.Along M P ls) :
    s.Along M Q ls := by
  induction ls generalizing s with
  | nil => trivial
  | cons l rest ih => exact ⟨hPQ s l h.1, fun s' hs' => ih (h.2 s' hs')⟩

/-- Two conditions that agree wherever a step is made. -/
theorem along_iff {M : Machine E W C} {P Q : Config E W α → Nat × C → Prop}
    (hPQ : ∀ s l s', s.step M l = some s' → (P s l ↔ Q s l)) {s s' : Config E W α} {ls : List (Nat × C)}
    (hrun : s.run M ls = some s') : s.Along M P ls ↔ s.Along M Q ls := by
  induction ls generalizing s with
  | nil => rfl
  | cons l rest ih =>
    obtain ⟨m, hm, hrest⟩ := run_cons hrun
    refine and_congr (hPQ s l m hm) (forall₂_congr fun m' hm' => ?_)
    cases hm.symm.trans hm'
    exact ih hrest

theorem along_and {M : Machine E W C} {P Q : Config E W α → Nat × C → Prop} {s : Config E W α}
    {ls : List (Nat × C)} (hP : s.Along M P ls) (hQ : s.Along M Q ls) :
    s.Along M (fun s l => P s l ∧ Q s l) ls := by
  induction ls generalizing s with
  | nil => trivial
  | cons l rest ih => exact ⟨⟨hP.1, hQ.1⟩, fun s' hs' => ih (hP.2 s' hs') (hQ.2 s' hs')⟩

theorem along_performs_and {M : Machine E W C} {P Q : W → Nat → E.Op → C → Prop} {s : Config E W α}
    {ls : List (Nat × C)} (hP : s.Along M (Performs P) ls) (hQ : s.Along M (Performs Q) ls) :
    s.Along M (Performs fun w t o c => P w t o c ∧ Q w t o c) ls :=
  along_mono (fun _ _ h o k hp => ⟨h.1 o k hp, h.2 o k hp⟩) (along_and hP hQ)

/-- Every state of the run is in `I`, the first and the last among them. -/
def Throughout (M : Machine E W C) (I : Config E W α → Prop) (s : Config E W α) : List (Nat × C) → Prop
  | [] => I s
  | l :: rest => I s ∧ ∀ s', s.step M l = some s' → s'.Throughout M I rest

theorem throughout_first {M : Machine E W C} {I : Config E W α → Prop} {s : Config E W α}
    {ls : List (Nat × C)} (h : s.Throughout M I ls) : I s := by
  cases ls with
  | nil => exact h
  | cons l rest => exact h.1

theorem throughout_last {M : Machine E W C} {I : Config E W α → Prop} {s s' : Config E W α} {ls : List (Nat × C)}
    (h : s.Throughout M I ls) (hrun : s.run M ls = some s') : I s' := by
  induction ls generalizing s with
  | nil =>
    cases hrun
    exact h
  | cons l rest ih =>
    obtain ⟨m, hm, hrest⟩ := run_cons hrun
    exact ih (h.2 m hm) hrest

/-- Anything every permitted step keeps holds throughout a run of permitted steps. -/
theorem throughout_of_keeps {M : Machine E W C} {P : Config E W α → Nat × C → Prop}
    {I : Config E W α → Prop} (keep : ∀ s l s', I s → P s l → s.step M l = some s' → I s')
    {s : Config E W α} {ls : List (Nat × C)} (hP : s.Along M P ls) (hI : I s) : s.Throughout M I ls := by
  induction ls generalizing s with
  | nil => exact hI
  | cons l rest ih => exact ⟨hI, fun s' hs' => ih (hP.2 s' hs') (keep s l s' hI hP.1 hs')⟩

theorem throughout_mono {M : Machine E W C} {I J : Config E W α → Prop} (hIJ : ∀ s, I s → J s)
    {s : Config E W α} {ls : List (Nat × C)} (h : s.Throughout M I ls) : s.Throughout M J ls := by
  induction ls generalizing s with
  | nil => exact hIJ s h
  | cons l rest ih => exact ⟨hIJ s h.1, fun s' hs' => ih (h.2 s' hs')⟩

theorem throughout_and {M : Machine E W C} {I J : Config E W α → Prop} {s : Config E W α}
    {ls : List (Nat × C)} (hI : s.Throughout M I ls) (hJ : s.Throughout M J ls) :
    s.Throughout M (fun s => I s ∧ J s) ls := by
  induction ls generalizing s with
  | nil => exact ⟨hI, hJ⟩
  | cons l rest ih => exact ⟨⟨hI.1, hJ.1⟩, fun s' hs' => ih (hI.2 s' hs') (hJ.2 s' hs')⟩

/-- What every state allows, every step of the run meets. -/
theorem along_of_throughout {M : Machine E W C} {I : Config E W α → Prop}
    {P : Config E W α → Nat × C → Prop} (hIP : ∀ s l, I s → P s l) {s : Config E W α}
    {ls : List (Nat × C)} (h : s.Throughout M I ls) : s.Along M P ls := by
  induction ls generalizing s with
  | nil => trivial
  | cons l rest ih => exact ⟨hIP s l h.1, fun s' hs' => ih (h.2 s' hs')⟩

/-- The step behind the first steps of a run. -/
theorem along_at {M : Machine E W C} {P : Config E W α → Nat × C → Prop} {s s' : Config E W α}
    {ls : List (Nat × C)} {l : Nat × C} (h : s.Along M P (ls ++ [l])) (hrun : s.run M ls = some s') :
    P s' l := by
  induction ls generalizing s with
  | nil =>
    cases hrun
    exact h.1
  | cons l' rest ih =>
    obtain ⟨m, hm, hrest⟩ := run_cons hrun
    exact ih (h.2 m hm) hrest

/-- How many steps of the run change the world as `p` says. -/
def changes (M : Machine E W C) (p : W → W → Bool) (s : Config E W α) : List (Nat × C) → Nat
  | [] => 0
  | l :: rest =>
    match s.step M l with
    | some s' => (if p s.world s'.world then 1 else 0) + s'.changes M p rest
    | none => 0

theorem changes_eq_zero {M : Machine E W C} {p : W → W → Bool} {s : Config E W α} {ls : List (Nat × C)} :
    s.changes M p ls = 0 ↔ s.Along M (fun s l => ∀ s', s.step M l = some s' → p s.world s'.world = false) ls := by
  induction ls generalizing s with
  | nil => exact iff_of_true rfl trivial
  | cons l rest ih =>
    unfold changes Along
    cases hs : s.step M l with
    | none => exact iff_of_true rfl ⟨nofun, nofun⟩
    | some s' => simp [ih]

/-- Whether every operation of the run meets `P`, for a run that is given. -/
def checks (M : Machine E W C) (P : W → Nat → E.Op → C → Prop) [∀ w t o c, Decidable (P w t o c)]
    (s : Config E W α) : List (Nat × C) → Bool
  | [] => true
  | l :: rest =>
    (match s.tasks[l.1]? with
      | some (.perform o _) => decide (P s.world l.1 o l.2)
      | _ => true) &&
    match s.step M l with
    | some s' => s'.checks M P rest
    | none => true

theorem along_of_checks {M : Machine E W C} {P : W → Nat → E.Op → C → Prop}
    [∀ w t o c, Decidable (P w t o c)] {s : Config E W α} {ls : List (Nat × C)}
    (h : s.checks M P ls = true) : s.Along M (Performs P) ls := by
  induction ls generalizing s with
  | nil => trivial
  | cons l rest ih =>
    simp only [checks, Bool.and_eq_true] at h
    refine ⟨fun o k hp => ?_, fun s' hs' => ?_⟩
    · simpa [hp] using h.1
    · rw [hs'] at h
      exact ih h.2

/-- A test of every state of a run. -/
def tests (M : Machine E W C) (p : Config E W α → Bool) (s : Config E W α) : List (Nat × C) → Bool
  | [] => p s
  | l :: rest =>
    p s && match s.step M l with
    | some s' => s'.tests M p rest
    | none => true

theorem throughout_of_tests {M : Machine E W C} {p : Config E W α → Bool} {s : Config E W α} {ls : List (Nat × C)}
    (h : s.tests M p ls = true) : s.Throughout M (fun s => p s = true) ls := by
  induction ls generalizing s with
  | nil => exact h
  | cons l rest ih =>
    obtain ⟨hnow, hlater⟩ := (Bool.and_eq_true _ _).mp h
    refine ⟨hnow, fun s' hs' => ih ?_⟩
    simpa only [hs'] using hlater

end Config

/-- Each operation that meets `P` upholds the invariant, for some permitted move
of the performing task's knowledge. -/
def Upheld (M : Machine E W C) (D : Discipline E G) (P : W → Nat → E.Op → C → Prop)
    (I : W → (Nat → G) → Prop) : Prop :=
  ∀ w γ t o c r w', I w γ → D.demand (γ t) o → P w t o c → M.perform t o c w = some (r, w') →
    ∃ g, D.move (γ t) o r g ∧ I w' (Function.update γ t g)

/-- The invariant holds for knowledge under which every task is safe. -/
def Kept (D : Discipline E G) (I : W → (Nat → G) → Prop) (Q : Nat → G → α → Prop)
    (s : Config E W α) : Prop :=
  ∃ γ, I s.world γ ∧ ∀ t p, s.tasks[t]? = some p → Safe D p (Q t) (γ t)

section Soundness
variable {M : Machine E W C} {D : Discipline E G} {P : W → Nat → E.Op → C → Prop}
  {I : W → (Nat → G) → Prop} {Q : Nat → G → α → Prop}

theorem step_safe (h : Upheld M D P I) {s s' : Config E W α} {l : Nat × C}
    (hk : Kept D I Q s) (hP : s.Performs P l) (hs : s.step M l = some s') : Kept D I Q s' := by
  obtain ⟨t, c⟩ := l
  obtain ⟨o, k, r, w, hp, hw, rfl⟩ := Config.step_eq_some hs
  obtain ⟨γ, hI, hsafe⟩ := hk
  obtain ⟨hdemand, hnext⟩ := hsafe t _ hp
  obtain ⟨g, hmove, hI'⟩ := h s.world γ t o c r w hI hdemand (hP o k hp) hw
  refine ⟨Function.update γ t g, hI', fun u p hu => ?_⟩
  have hlt : t < s.tasks.length := (List.getElem?_eq_some_iff.mp hp).1
  by_cases hut : u = t
  · subst hut
    rw [List.getElem?_set_self hlt] at hu
    cases hu
    rw [Function.update_self]
    exact hnext r g hmove
  · rw [List.getElem?_set_ne (Ne.symm hut)] at hu
    rw [Function.update_of_ne hut]
    exact hsafe u p hu

/-- **Every run of permitted steps ends in safe tasks.** -/
theorem run_safe (h : Upheld M D P I) {s s' : Config E W α} {ls : List (Nat × C)}
    (hrun : s.run M ls = some s') (hP : s.Along M (Config.Performs P) ls) (hk : Kept D I Q s) :
    Kept D I Q s' :=
  Config.run_keeps (fun _ _ _ hI hl hs => step_safe h hI hl hs) hrun hP hk

/-- The invariant holds throughout a run of permitted steps. -/
theorem throughout_safe (h : Upheld M D P I) {s : Config E W α} {ls : List (Nat × C)}
    (hP : s.Along M (Config.Performs P) ls) (hk : Kept D I Q s) : s.Throughout M (Kept D I Q) ls :=
  Config.throughout_of_keeps (fun _ _ _ hI hl hs => step_safe h hI hl hs) hP hk

/-- What a task has returned meets its postcondition, for knowledge the invariant holds of. -/
theorem Kept.returned {s : Config E W α} (hk : Kept D I Q s) {t : Nat} {a : α}
    (ha : s.returned t = some a) : ∃ γ, I s.world γ ∧ Q t (γ t) a := by
  obtain ⟨γ, hI, hsafe⟩ := hk
  unfold Config.returned at ha
  split at ha
  · next b hb =>
    cases ha
    exact ⟨γ, hI, hsafe t _ hb⟩
  · cases ha

end Soundness

end Async
