import XProtocol.Async.Ledger

/-! Futures that may be dropped.

A task that waits may be dropped there. Nothing more of its program runs, and what it has
in hand is let go: the ledger says what that is. An invariant that operations keep, and
that letting go keeps, holds throughout (`dropping_upheld`, `safe_dropping`). -/
namespace Async

variable {E : Interface} {W C D G α : Type}

/-- The machine, with a ledger; a task that waits at an operation that `suspends` may be dropped,
and lets go of what it has in hand. -/
def Machine.dropping (M : Machine E W C) (after : G → (o : E.Op) → E.Ret o → G) (suspends : E.Op → Bool)
    (letGo : Nat → E.Op → D → G → W → W) (bare : G → G) : Machine E.droppable (W × (Nat → G)) (C ⊕ D) where
  perform t o
    | .inl c, w => ((M.ledger after).perform t o c w).map fun x => (some x.1, x.2)
    | .inr d, w =>
      if suspends o then some (none, letGo t o d (w.2 t) w.1, Function.update w.2 t (bare (w.2 t)))
      else none

/-- The account of a task that may have been dropped. -/
def afterDropping (after : G → (o : E.Op) → E.Ret o → G) (bare : G → G) (g : G) (o : E.Op) : Option (E.Ret o) → G
  | some r => after g o r
  | none => bare g

/-- What a task that may be dropped knows and owes. -/
abbrev lettingGo (demand : G → E.Op → Prop) (after : G → (o : E.Op) → E.Ret o → G) (bare : G → G) :
    Discipline E.droppable G :=
  @owing E.droppable G demand (afterDropping after bare)

variable {M : Machine E W C} {demand : G → E.Op → Prop} {after : G → (o : E.Op) → E.Ret o → G}
  {suspends : E.Op → Bool} {letGo : Nat → E.Op → D → G → W → W} {bare : G → G}

/-- What operations keep, and letting go keeps, dropping keeps. -/
theorem dropping_upheld {P : Nat → Prop} {J : W → (Nat → G) → Prop}
    (hkeep : Keeps M demand after (fun _ t _ _ => P t) J)
    (hdrop : ∀ w γ t o d, J w γ → demand (γ t) o → P t → suspends o = true →
      J (letGo t o d (γ t) w) (Function.update γ t (bare (γ t)))) :
    Upheld (M.dropping after suspends letGo bare) (lettingGo demand after bare) (fun _ t _ _ => P t)
      fun w γ => w.2 = γ ∧ J w.1 γ := by
  rintro ⟨w, γ⟩ _ t o (c | d) r w' ⟨rfl, hJ⟩ hd hP hstep
  · obtain ⟨x, hx, heq⟩ := Option.map_eq_some_iff.mp hstep
    obtain ⟨y, hy, rfl⟩ := Option.map_eq_some_iff.mp hx
    cases heq
    exact ⟨_, rfl, rfl, hkeep w γ t o c y.1 y.2 hJ hd hP hy⟩
  · obtain ⟨hsuspends, heq⟩ := Option.ite_none_right_eq_some.mp hstep
    cases heq
    exact ⟨_, rfl, rfl, hdrop w γ t o d hJ hd hP hsuspends⟩

/-- A program that may be dropped owes its operations what it owed before. -/
theorem safe_dropping {p : Program E α} {Q : G → α → Prop} {g : G} (h : Safe (owing demand after) p Q g) :
    Safe (lettingGo demand after bare) p.dropping (fun g a => ∀ b, a = some b → Q g b) g := by
  induction p generalizing g with
  | done a =>
    rintro b ⟨⟩
    exact h
  | perform o k ih =>
    rw [safe_owing] at h
    rw [Program.dropping, Program.droppable]
    refine (@safe_owing E.droppable ..).mpr ⟨h.1, fun r => ?_⟩
    cases r with
    | none =>
      intro b hb
      cases hb
    | some b => exact ih b (h.2 b)

end Async
