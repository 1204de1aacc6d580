import Mathlib.Logic.Relation
import XProtocol.Async.Alone

/-! A program among others.

While the program waits for its next operation, others may move the world (`env`). What
is known of it is the world all the same, but for what the others may make of it before
the operation (`Shifts`). Under `M.among env` the program is owed that they come to an
end, and that it is not stuck then: so it returns (`inevitably_among`). Under `M.amid env`
it is owed nothing, and what is safe holds if it returns (`returned_amid`). -/
namespace Async

/-! ### What is bound to happen -/

section Inevitably
variable {S : Type} {R : S → S → Prop} {P Q D : S → Prop} {s t : S}

/-- However it goes on, a state in `Q` is reached, and before it the system is never stuck. -/
inductive Inevitably (R : S → S → Prop) (Q : S → Prop) : S → Prop
  | now {s : S} (h : Q s) : Inevitably R Q s
  | later {s : S} (hgo : ∃ s', R s s') (hnext : ∀ s', R s s' → Inevitably R Q s') : Inevitably R Q s

theorem Inevitably.mono (hPQ : ∀ s, P s → Q s) (h : Inevitably R P s) : Inevitably R Q s := by
  induction h with
  | now h => exact .now (hPQ _ h)
  | later hgo _ ih => exact .later hgo ih

theorem Inevitably.reaches (h : Inevitably R Q s) : ∃ t, Relation.ReflTransGen R s t ∧ Q t := by
  induction h with
  | @now s h => exact ⟨s, .refl, h⟩
  | later hgo _ ih =>
    obtain ⟨s', hs'⟩ := hgo
    obtain ⟨t, ht, hQ⟩ := ih s' hs'
    exact ⟨t, .head hs' ht, hQ⟩

/-- Whatever is reached is on the way there, or behind it. -/
theorem Inevitably.along (h : Inevitably R Q s) (hst : Relation.ReflTransGen R s t) :
    Inevitably R Q t ∨ ∃ u, Q u ∧ Relation.ReflTransGen R u t := by
  induction hst using Relation.ReflTransGen.head_induction_on with
  | refl => exact .inl h
  | @head s s' hs hs't ih =>
    cases h with
    | now hQ => exact .inr ⟨s, hQ, .head hs hs't⟩
    | later _ hnext => exact ih (hnext s' hs)

/-- Nothing is bound to happen outside of what is never left. -/
theorem Inevitably.not_of_closed (h : Inevitably R Q s) (hclosed : ∀ s s', D s → R s s' → D s')
    (hout : ∀ s, Q s → ¬ D s) : ¬ D s := by
  induction h with
  | now hQ => exact hout _ hQ
  | later hgo _ ih =>
    obtain ⟨s', hs'⟩ := hgo
    exact fun hD => ih s' hs' (hclosed _ s' hD hs')

end Inevitably

/-! ### The program and the others -/

/-- A world, and the program that runs in it. -/
structure Scene (E : Interface) (W α : Type) where
  world : W
  program : Program E α

variable {E : Interface} {W C L α : Type}

/-- The program performs its operation, or one of the others moves. -/
def Scene.step (M : Machine E W C) (env : L → W → Option W) (s : Scene E W α) : C ⊕ L → Option (Scene E W α)
  | .inl c => (s.program.step M 0 c s.world).map fun x => ⟨x.2, x.1⟩
  | .inr l => (env l s.world).map fun w => ⟨w, s.program⟩

def Scene.run (M : Machine E W C) (env : L → W → Option W) (s : Scene E W α) :
    List (C ⊕ L) → Option (Scene E W α)
  | [] => some s
  | m :: rest => (s.step M env m).bind fun s' => s'.run M env rest

def Scene.Moves (M : Machine E W C) (env : L → W → Option W) (s s' : Scene E W α) : Prop :=
  ∃ m, s.step M env m = some s'

/-- What the others may make of the world. -/
def Shifts (env : L → W → Option W) : W → W → Prop := Relation.ReflTransGen fun w w' => ∃ l, env l w = some w'

/-- What is known is the world before the others have moved it. -/
def Machine.amid (M : Machine E W C) (env : L → W → Option W) : Discipline E W where
  demand _ _ := True
  move w o r w' := ∃ w₁ c, Shifts env w w₁ ∧ M.perform 0 o c w₁ = some (r, w')

/-- The same; and the others come to an end, and leave the program a way to go on. -/
def Machine.among (M : Machine E W C) (env : L → W → Option W) : Discipline E W where
  demand w o := Acc (fun w' w => ∃ l, env l w = some w') w ∧ ∀ w₁, Shifts env w w₁ →
    (∃ l w₂, env l w₁ = some w₂) ∨ ∃ c x, M.perform 0 o c w₁ = some x
  move := (M.amid env).move

variable {M : Machine E W C} {env : L → W → Option W} {Q : W → α → Prop} {w w₁ w' : W}

theorem Scene.moves_cases {s s' : Scene E W α} (h : s.Moves M env s') :
    (∃ o k c r w, s.program = .perform o k ∧ M.perform 0 o c s.world = some (r, w) ∧ s' = ⟨w, k r⟩) ∨
    ∃ l w, env l s.world = some w ∧ s' = ⟨w, s.program⟩ := by
  obtain ⟨c | l, h⟩ := h
  · obtain ⟨⟨p, w⟩, hp, rfl⟩ := Option.map_eq_some_iff.mp h
    obtain ⟨world, program⟩ := s
    cases program with
    | done a => exact nomatch hp
    | perform o k =>
      obtain ⟨⟨r, w⟩, hw, heq⟩ := Option.map_eq_some_iff.mp hp
      cases heq
      exact .inl ⟨o, k, c, r, w, rfl, hw, rfl⟩
  · obtain ⟨w, hw, rfl⟩ := Option.map_eq_some_iff.mp h
    exact .inr ⟨l, w, hw, rfl⟩

theorem Scene.moves_perform {o : E.Op} {k : E.Ret o → Program E α} {c : C} {r : E.Ret o}
    (h : M.perform 0 o c w = some (r, w')) : Scene.Moves M env ⟨w, .perform o k⟩ ⟨w', k r⟩ :=
  ⟨.inl c, by simp [Scene.step, Program.step, h]⟩

theorem Scene.moves_env {p : Program E α} {l : L} (h : env l w = some w') :
    Scene.Moves M env ⟨w, p⟩ ⟨w', p⟩ :=
  ⟨.inr l, by simp [Scene.step, h]⟩

/-- A program that has returned stays so. -/
theorem Scene.done_reaches {s s' : Scene E W α} {a : α} (ha : s.program = .done a)
    (h : Relation.ReflTransGen (Scene.Moves M env) s s') : s'.program = .done a := by
  induction h with
  | refl => exact ha
  | tail _ hmove ih =>
    rcases Scene.moves_cases hmove with ⟨o, k, c, r, w, ho, -, -⟩ | ⟨l, w, -, rfl⟩
    · exact nomatch ih.symm.trans ho
    · exact ih

theorem Scene.run_reaches {s s' : Scene E W α} {ms : List (C ⊕ L)} (h : s.run M env ms = some s') :
    Relation.ReflTransGen (Scene.Moves M env) s s' := by
  induction ms generalizing s with
  | nil =>
    cases h
    exact .refl
  | cons m rest ih =>
    obtain ⟨t, ht, hrest⟩ := Option.bind_eq_some_iff.mp h
    exact .head ⟨m, ht⟩ (ih hrest)

/-- Who owes less is safe, too. -/
theorem safe_amid {p : Program E α} (h : Safe (M.among env) p Q w) : Safe (M.amid env) p Q w := by
  induction p generalizing w with
  | done a => exact h
  | perform o k ih => exact ⟨trivial, fun r w' hm => ih r (h.2 r w' hm)⟩

/-- Nothing is owed here. -/
theorem safe_amid_any (p : Program E α) : Safe (M.amid env) p (fun _ _ => True) w := by
  induction p generalizing w with
  | done a => trivial
  | perform o k ih => exact ⟨trivial, fun r _ _ => ih r⟩

/-- **What is safe for the program holds when it returns**, but for what the others do then. -/
theorem returned_amid {p : Program E α} (hp : Safe (M.amid env) p Q w) {s : Scene E W α} {a : α}
    (hs : Relation.ReflTransGen (Scene.Moves M env) ⟨w, p⟩ s) (ha : s.program = .done a) :
    ∃ w', Shifts env w' s.world ∧ Q w' a := by
  have hsafe : ∃ w', Shifts env w' s.world ∧ Safe (M.amid env) s.program Q w' := by
    clear ha
    induction hs with
    | refl => exact ⟨w, .refl, hp⟩
    | tail _ hmove ih =>
      obtain ⟨w', hshift, hsafe⟩ := ih
      rcases Scene.moves_cases hmove with ⟨o, k, c, r, w'', hprogram, hperform, rfl⟩ | ⟨l, w'', henv, rfl⟩
      · rw [hprogram] at hsafe
        exact ⟨w'', .refl, hsafe.2 r w'' ⟨_, c, hshift, hperform⟩⟩
      · exact ⟨w', hshift.tail ⟨l, henv⟩, hsafe⟩
  rwa [ha] at hsafe

/-- **A program that is owed a way to go on returns.** -/
theorem inevitably_among {p : Program E α} (h : Safe (M.among env) p Q w) :
    Inevitably (Scene.Moves M env) (fun s => ∃ a, s.program = .done a ∧ Q s.world a) ⟨w, p⟩ := by
  induction p generalizing w with
  | done a => exact .now ⟨a, rfl, h⟩
  | perform o k ih =>
    obtain ⟨⟨hacc, hgo⟩, hnext⟩ := h
    induction hacc with
    | intro w _ ihw =>
      refine .later ?_ fun s' hs' => ?_
      · rcases hgo w .refl with ⟨l, w', henv⟩ | ⟨c, ⟨r, w'⟩, hperform⟩
        · exact ⟨_, Scene.moves_env henv⟩
        · exact ⟨_, Scene.moves_perform hperform⟩
      · rcases Scene.moves_cases hs' with ⟨o', k', c, r, w', hprogram, hperform, rfl⟩ | ⟨l, w', henv, rfl⟩
        · cases hprogram
          exact ih r (hnext r w' ⟨w, c, .refl, hperform⟩)
        · refine ihw w' ⟨l, henv⟩ (fun r w'' hm => hnext r w'' ?_) fun w₁ h₁ => hgo w₁ (.head ⟨l, henv⟩ h₁)
          obtain ⟨w₁, c, h₁, hperform⟩ := hm
          exact ⟨w₁, c, .head ⟨l, henv⟩ h₁, hperform⟩

/-! ### One operation -/

/-- Nobody else moves. -/
def Still (env : L → W → Option W) (w : W) : Prop := ∀ l, env l w = none

theorem Still.shifts (h : Still env w) (hs : Shifts env w w₁) : w₁ = w := by
  rcases Relation.ReflTransGen.cases_head hs with rfl | ⟨w', ⟨l, hl⟩, -⟩
  · rfl
  · exact nomatch (h l).symm.trans hl

/-- An operation that nobody interferes with. -/
theorem safe_still {o : E.Op} {Q : W → E.Ret o → Prop} (hstill : Still env w)
    (hgo : ∃ c x, M.perform 0 o c w = some x)
    (h : ∀ c r w', M.perform 0 o c w = some (r, w') → Q w' r) :
    Safe (M.among env) (Program.op o) Q w := by
  refine (safe_op ..).mpr ⟨⟨⟨_, fun w' ⟨l, hl⟩ => nomatch (hstill l).symm.trans hl⟩, fun w₁ hs => ?_⟩, ?_⟩
  · exact .inr (hstill.shifts hs ▸ hgo)
  · rintro r w' ⟨w₁, c, hs, hperform⟩
    exact h c r w' (hstill.shifts hs ▸ hperform)

/-- The one move that the others have here. -/
structure Turns (env : L → W → Option W) (w w₁ : W) : Prop where
  goes : ∃ l, env l w = some w₁
  only : ∀ l w', env l w = some w' → w' = w₁
  still : Still env w₁

theorem Turns.shifts (h : Turns env w w₁) (hs : Shifts env w w') : w' = w ∨ w' = w₁ := by
  rcases Relation.ReflTransGen.cases_head hs with rfl | ⟨w'', ⟨l, hl⟩, hs⟩
  · exact .inl rfl
  · obtain rfl := h.only l w'' hl
    exact .inr (h.still.shifts hs)

/-- An operation that waits for one of the others. -/
theorem safe_turns {o : E.Op} {Q : W → E.Ret o → Prop} (hturns : Turns env w w₁)
    (hwaits : ∀ c, M.perform 0 o c w = none) (hgo : ∃ c x, M.perform 0 o c w₁ = some x)
    (h : ∀ c r w', M.perform 0 o c w₁ = some (r, w') → Q w' r) :
    Safe (M.among env) (Program.op o) Q w := by
  have hacc : Acc (fun w' w => ∃ l, env l w = some w') w := by
    refine ⟨_, fun w' ⟨l, hl⟩ => ?_⟩
    obtain rfl := hturns.only l w' hl
    exact ⟨_, fun w'' ⟨l, hl⟩ => nomatch (hturns.still l).symm.trans hl⟩
  refine (safe_op ..).mpr ⟨⟨hacc, fun w' hs => ?_⟩, ?_⟩
  · rcases hturns.shifts hs with rfl | rfl
    · obtain ⟨l, hl⟩ := hturns.goes
      exact .inl ⟨l, _, hl⟩
    · exact .inr hgo
  · rintro r w' ⟨w'', c, hs, hperform⟩
    rcases hturns.shifts hs with rfl | rfl
    · exact nomatch (hwaits c).symm.trans hperform
    · exact h c r w' hperform

/-- An operation that waits for one of the others in vain is safe in its way. -/
theorem safe_stuck {o : E.Op} {Q : W → E.Ret o → Prop} (hturns : Turns env w w₁)
    (hwaits : ∀ c, M.perform 0 o c w = none) (hstuck : ∀ c, M.perform 0 o c w₁ = none) :
    Safe (M.amid env) (Program.op o) Q w := by
  refine (safe_op ..).mpr ⟨trivial, ?_⟩
  rintro r w' ⟨w'', c, hs, hperform⟩
  rcases hturns.shifts hs with rfl | rfl
  · exact nomatch (hwaits c).symm.trans hperform
  · exact nomatch (hstuck c).symm.trans hperform

end Async
