import XProtocol.Async.Alone
import XProtocol.Async.Order

/-! What happens in the end, whatever is chosen.

A discipline may be sharpened: a program owes more at its operations, and is told more in
return, if the operations that are permitted keep something more of the world
(`upheld_sharpen`). So what the environment is trusted with comes to the programs, each of
which is shown to need no more.

Tasks that take things in order all return; here they do so along the permitted operations
only, if whoever can move at all is permitted to move in some way (`Ordered.inevitably`). -/
namespace Async

variable {E : Interface} {W C G α : Type}

/-- What the program owes besides, and what it is told besides. -/
def Discipline.sharpen (D : Discipline E G) (owes : G → E.Op → Prop) (told : G → (o : E.Op) → E.Ret o → Prop) :
    Discipline E G where
  demand g o := D.demand g o ∧ owes g o
  move g o r g' := D.move g o r g' ∧ told g o r

/-- What a program owed before holds besides. -/
theorem safe_sharpen {D : Discipline E G} {owes : G → E.Op → Prop} {told : G → (o : E.Op) → E.Ret o → Prop}
    {p : Program E α} {Q R : G → α → Prop} {g : G} (hQ : Safe (D.sharpen owes told) p Q g) (hR : Safe D p R g) :
    Safe (D.sharpen owes told) p (fun g a => Q g a ∧ R g a) g := by
  induction p generalizing g with
  | done a => exact ⟨hQ, hR⟩
  | perform o k ih => exact ⟨hQ.1, fun r g' hm => ih r (hQ.2 r g' hm) (hR.2 r g' hm.1)⟩

/-- What is kept besides pays for what is told. -/
theorem upheld_sharpen {M : Machine E W C} {D : Discipline E G} {P : W → Nat → E.Op → C → Prop}
    {I : W → (Nat → G) → Prop} {J : W → Prop} {owes : G → E.Op → Prop} {told : G → (o : E.Op) → E.Ret o → Prop}
    (h : Upheld M D P I)
    (hJ : ∀ w γ t o c r w', I w γ → J w → D.demand (γ t) o → owes (γ t) o → P w t o c →
      M.perform t o c w = some (r, w') → told (γ t) o r ∧ J w') :
    Upheld M (D.sharpen owes told) P fun w γ => I w γ ∧ J w := by
  rintro w γ t o c r w' ⟨hI, hw⟩ ⟨hd, howes⟩ hP hstep
  obtain ⟨g, hmove, hI'⟩ := h w γ t o c r w' hI hd hP hstep
  obtain ⟨htold, hw'⟩ := hJ w γ t o c r w' hI hw hd howes hP hstep
  exact ⟨g, ⟨hmove, htold⟩, hI', hw'⟩

namespace Config

/-- A run of permitted steps leads from `s` to `s'`. -/
def Leads (M : Machine E W C) (P : Config E W α → Nat × C → Prop) (s s' : Config E W α) : Prop :=
  ∃ ls, s.run M ls = some s' ∧ s.Along M P ls

variable {M : Machine E W C} {P : Config E W α → Nat × C → Prop} {s s' s'' : Config E W α}

theorem Leads.refl (s : Config E W α) : s.Leads M P s := ⟨[], rfl, trivial⟩

theorem along_snoc {ls : List (Nat × C)} {l : Nat × C} (hrun : s.run M ls = some s') (h : s.Along M P ls)
    (hl : P s' l) : s.Along M P (ls ++ [l]) := by
  induction ls generalizing s with
  | nil =>
    cases hrun
    exact ⟨hl, fun _ _ => trivial⟩
  | cons l' rest ih =>
    obtain ⟨m, hm, hrest⟩ := run_cons hrun
    refine ⟨h.1, fun m' hm' => ?_⟩
    cases hm.symm.trans hm'
    exact ih hrest (h.2 m hm)

/-- One permitted step more. -/
theorem Leads.step (h : s.Leads M P s') {l : Nat × C} (hl : P s' l) (hstep : s'.step M l = some s'') :
    s.Leads M P s'' := by
  obtain ⟨ls, hrun, halong⟩ := h
  refine ⟨ls ++ [l], ?_, along_snoc hrun halong hl⟩
  simp only [run_append, hrun, Option.bind_some, run, hstep]

theorem Leads.run_only {allowed : C → Bool} (h : s.Leads (M.only allowed) P s') : ∃ ls, s.run M ls = some s' := by
  obtain ⟨ls, hrun, -⟩ := h
  exact ⟨ls, Config.run_only hrun⟩

/-- What is inevitable among some choices is inevitable where only these are permitted. -/
theorem Inevitably.of_only {allowed : C → Bool} {P : W → Nat → E.Op → C → Prop}
    (hP : ∀ w t o c, P w t o c → allowed c = true) {Q : Config E W α → Prop}
    (h : s.Inevitably (M.only allowed) (Performs P) Q) : s.Inevitably M (Performs P) Q := by
  induction h with
  | now h => exact .now h
  | later hgo _ ih =>
    obtain ⟨l, s', hl, hstep⟩ := hgo
    refine .later ⟨l, s', hl, step_only hstep⟩ fun l s' hl hstep => ih l s' hl ?_
    obtain ⟨t, c⟩ := l
    obtain ⟨o, k, r, w, hp, hw, rfl⟩ := step_eq_some hstep
    exact step_perform hp (Machine.only_some.mpr ⟨hP _ t o c (hl o k hp), hw⟩)

end Config

namespace Ordered
variable {M : Machine E W C} {D : Discipline E G} {I : W → (Nat → G) → Prop} {count : Nat} {rank : E.Op → Nat}
  {has : G → Nat → Prop} {Q : Nat → G → α → Prop} {P₀ P : W → Nat → E.Op → C → Prop} {s₀ : Config E W α}

/-- **Tasks that take things in order all return**, whatever is chosen of what is permitted, if whoever can move is
always permitted to move in some way; and they return what they owe. -/
theorem inevitably {G' : Type} {D' : Discipline E G'} {J : W → (Nat → G') → Prop} {Q' : Nat → G' → α → Prop}
    (h : Ordered M D I count rank has) (hupheld : Upheld M D P₀ I) (hP₀ : ∀ ls, s₀.Along M (Config.Performs P₀) ls)
    (hcount : s₀.tasks.length = count) (hkept : Kept D I Q s₀) (hrest : ∀ t g a r, Q t g a → ¬ has g r)
    (hupheld' : Upheld M D' P J) (hkept' : Kept D' J Q' s₀)
    (hmoves : ∀ w γ t o, J w γ → D'.demand (γ t) o → (∃ c x, M.perform t o c w = some x) →
      ∃ c x, P w t o c ∧ M.perform t o c w = some x) :
    s₀.Inevitably M (Config.Performs P) fun s => s₀.Leads M (Config.Performs P) s ∧
      ∀ t < count, ∃ γ a, s.returned t = some a ∧ J s.world γ ∧ Q' t (γ t) a := by
  have hall (s : Config E W α) : s₀.Leads M (Config.Performs P) s →
      s.Inevitably M (Config.Performs P) fun s => s₀.Leads M (Config.Performs P) s ∧ s.Over := by
    induction s using (Config.next_wellFounded M).induction with
    | h s ih =>
      intro hs
      by_cases hover : s.Over
      · exact .now ⟨hs, hover⟩
      have ⟨ls, hrun, halong⟩ := hs
      have hfree : ¬ s.Stuck M := fun hstuck =>
        hover (h.finishes ((Config.run_length hrun).trans hcount) (run_safe hupheld hrun (hP₀ ls) hkept) hrest hstuck)
      simp only [Config.Stuck, not_forall] at hfree
      obtain ⟨⟨t, c⟩, hstep⟩ := hfree
      obtain ⟨s', hstep⟩ := Option.ne_none_iff_exists'.mp hstep
      obtain ⟨o, k, r, w, hp, hperform, -⟩ := Config.step_eq_some hstep
      obtain ⟨γ, hJ, hsafe⟩ := run_safe hupheld' hrun halong hkept'
      obtain ⟨c', ⟨r', w'⟩, hP, hperform'⟩ := hmoves s.world γ t o hJ (hsafe t _ hp).1 ⟨c, _, hperform⟩
      refine .later ⟨(t, c'), _, fun o' k' hp' => ?_, Config.step_perform hp hperform'⟩ fun l s' hl hstep =>
        ih s' ⟨l, hstep⟩ (hs.step hl hstep)
      cases hp.symm.trans hp'
      exact hP
  refine (hall s₀ (.refl s₀)).mono ?_
  rintro s ⟨hs, hover⟩
  refine ⟨hs, fun t ht => ?_⟩
  obtain ⟨ls, hrun, halong⟩ := hs
  obtain ⟨a, ha⟩ := hover t (by rwa [Config.run_length hrun, hcount])
  obtain ⟨γ, hJ, hQ'⟩ := (run_safe hupheld' hrun halong hkept').returned ha
  exact ⟨γ, a, ha, hJ, hQ'⟩

end Ordered

end Async
