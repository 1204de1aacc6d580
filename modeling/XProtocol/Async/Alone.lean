import XProtocol.Async.Machine

/-! A program that runs alone.

Nothing but the program moves the world then, so the world itself is what is known
of it: under `alone M P`, `Safe` says what holds of the world and the result
whenever the program returns, if every operation meets `P`. Under `sure M P` the
program is owed a choice that meets `P` at each operation besides, so that it
returns in the end, whatever is chosen (`inevitably_returns`). Under `within M P A` it
owes something at each operation, which then holds throughout (`throughout_within`). -/
namespace Async

variable {E : Interface} {W C α : Type}

/-- What is known is the world, and an operation that meets `P` moves it. -/
def Machine.alone (M : Machine E W C) (P : W → E.Op → C → Prop) : Discipline E W where
  demand _ _ := True
  move w o r w' := ∃ c, P w o c ∧ M.perform 0 o c w = some (r, w')

/-- The same, and each operation is one that `A` allows where it is performed. -/
def Machine.within (M : Machine E W C) (P : W → E.Op → C → Prop) (A : W → E.Op → Prop) : Discipline E W where
  demand := A
  move := (M.alone P).move

/-- The same, and no operation is waited for in vain: each can be performed in some way that meets `P`. -/
def Machine.sure (M : Machine E W C) (P : W → E.Op → C → Prop) : Discipline E W where
  demand w o := ∃ c x, P w o c ∧ M.perform 0 o c w = some x
  move w o r w' := ∃ c, P w o c ∧ M.perform 0 o c w = some (r, w')

variable {M : Machine E W C} {P : W → E.Op → C → Prop} {A : W → E.Op → Prop} {Q : W → α → Prop}
  {w w' : W} {a : α}

theorem safe_alone {p : Program E α} (h : Safe (M.sure P) p Q w) : Safe (M.alone P) p Q w := by
  induction p generalizing w with
  | done a => exact h
  | perform o k ih => exact ⟨trivial, fun r w' hm => ih r (h.2 r w' hm)⟩

/-- The one task is safe where it is. -/
def Config.Sole (D : Discipline E W) (Q : W → α → Prop) (s : Config E W α) : Prop :=
  ∃ p, s.tasks = [p] ∧ Safe D p Q s.world

theorem step_sole {s s' : Config E W α} {l : Nat × C} (hs : s.Sole (M.within P A) Q)
    (hP : s.Performs (fun w _ o c => P w o c) l) (h : s.step M l = some s') : s'.Sole (M.within P A) Q := by
  obtain ⟨t, c⟩ := l
  obtain ⟨o, k, r, w, ho, hw, rfl⟩ := Config.step_eq_some h
  obtain ⟨p, htasks, hp⟩ := hs
  obtain ⟨rfl, rfl⟩ : t = 0 ∧ p = .perform o k := by simpa [htasks, List.getElem?_singleton] using ho
  exact ⟨k r, by rw [htasks]; rfl, hp.2 r w ⟨c, hP o k ho, hw⟩⟩

/-- `p`, run alone from `w` with operations that meet `P`, has returned `a` and left `w'`. -/
def Returns (M : Machine E W C) (P : W → E.Op → C → Prop) (p : Program E α) (w : W) (a : α) (w' : W) :
    Prop :=
  ∃ ls s, (⟨w, [p]⟩ : Config E W α).run M ls = some s ∧
    (⟨w, [p]⟩ : Config E W α).Along M (Config.Performs fun w _ o c => P w o c) ls ∧
    s.returned 0 = some a ∧ s.world = w'

/-- **What is safe for a program that runs alone holds when it returns.** -/
theorem Returns.safe {p : Program E α} (h : Returns M P p w a w') (hp : Safe (M.alone P) p Q w) :
    Q w' a := by
  obtain ⟨ls, s, hrun, hP, ha, rfl⟩ := h
  have hsole : s.Sole (M.within P fun _ _ => True) Q :=
    Config.run_keeps (fun _ _ _ hs hl => step_sole hs hl) hrun hP ⟨p, rfl, hp⟩
  obtain ⟨q, htasks, hq⟩ := hsole
  cases q with
  | done b =>
    obtain rfl : b = a := by simpa [Config.returned, htasks] using ha
    exact hq
  | perform o k => simp [Config.returned, htasks] at ha

/-- **What every operation and the result need holds throughout.** -/
theorem throughout_within {R : W → Prop} {p : Program E α} (hp : Safe (M.within P A) p Q w)
    (hA : ∀ w o, A w o → R w) (hQ : ∀ w a, Q w a → R w) {ls : List (Nat × C)}
    (hP : (⟨w, [p]⟩ : Config E W α).Along M (Config.Performs fun w _ o c => P w o c) ls) :
    (⟨w, [p]⟩ : Config E W α).Throughout M (fun s => R s.world) ls := by
  have hsole : (⟨w, [p]⟩ : Config E W α).Throughout M (Config.Sole (M.within P A) Q) ls :=
    Config.throughout_of_keeps (fun _ _ _ hs hl => step_sole hs hl) hP ⟨p, rfl, hp⟩
  refine Config.throughout_mono (fun s hs => ?_) hsole
  obtain ⟨q, -, hq⟩ := hs
  cases q with
  | done b => exact hQ _ b hq
  | perform o k => exact hA _ o hq.1

/-- Whatever is chosen, as long as it meets `P`, a state in `Q` is reached, and nothing waits forever before. -/
inductive Config.Inevitably (M : Machine E W C) (P : Config E W α → Nat × C → Prop)
    (Q : Config E W α → Prop) : Config E W α → Prop
  | now {s : Config E W α} (h : Q s) : Inevitably M P Q s
  | later {s : Config E W α} (hgo : ∃ l s', P s l ∧ s.step M l = some s')
      (hnext : ∀ l s', P s l → s.step M l = some s' → Inevitably M P Q s') : Inevitably M P Q s

theorem Config.Inevitably.mono {P : Config E W α → Nat × C → Prop} {Q R : Config E W α → Prop}
    (hQR : ∀ s, Q s → R s) {s : Config E W α} (h : s.Inevitably M P Q) : s.Inevitably M P R := by
  induction h with
  | now h => exact .now (hQR _ h)
  | later hgo _ ih => exact .later hgo ih

theorem Config.Inevitably.reaches {P : Config E W α → Nat × C → Prop} {Q : Config E W α → Prop} {s : Config E W α}
    (h : s.Inevitably M P Q) : ∃ ls s', s.run M ls = some s' ∧ s.Along M P ls ∧ Q s' := by
  induction h with
  | now h => exact ⟨[], _, rfl, trivial, h⟩
  | later hgo _ ih =>
    obtain ⟨l, m, hP, hl⟩ := hgo
    obtain ⟨ls, s', hrun, hrest, hs'⟩ := ih l m hP hl
    refine ⟨l :: ls, s', by rw [Config.run, hl]; exact hrun, ⟨hP, fun m' hm' => ?_⟩, hs'⟩
    cases hl.symm.trans hm'
    exact hrest

/-- **A program that is sure of every operation returns.** -/
theorem inevitably_returns {p : Program E α} (h : Safe (M.sure P) p Q w) :
    (⟨w, [p]⟩ : Config E W α).Inevitably M (Config.Performs fun w _ o c => P w o c)
      fun s => ∃ a, s.returned 0 = some a ∧ Q s.world a := by
  induction p generalizing w with
  | done a => exact .now ⟨a, rfl, h⟩
  | perform o k ih =>
    obtain ⟨⟨c, ⟨r, w'⟩, hP, hperform⟩, hnext⟩ := h
    refine .later ⟨(0, c), ⟨w', [k r]⟩, ?_, Config.step_perform rfl hperform⟩ ?_
    · rintro _ _ ⟨⟩
      exact hP
    · rintro ⟨t, c'⟩ s' hP' hs
      obtain ⟨o', k', r', w'', hp, hperform', rfl⟩ := Config.step_eq_some hs
      obtain ⟨rfl, hok⟩ : t = 0 ∧ Program.perform o k = .perform o' k' := by
        simpa [List.getElem?_singleton] using hp
      cases hok
      exact ih r' (hnext r' w'' ⟨c', hP' o k rfl, hperform'⟩)

end Async
