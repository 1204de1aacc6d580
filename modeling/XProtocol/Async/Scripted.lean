import XProtocol.Async.Alone

/-! A program whose operations are answered by a script.

Nothing is chosen then: what an operation answers, if anything, and what is remembered
afterwards, is a function of what is remembered. Where nothing is answered the program stops.
A program's play is put together from the plays of its parts (`play_bind`), and what every
answer keeps, the play keeps (`play_keeps`).

A machine is scripted by saying what is chosen, which may depend on what was answered so far to the
operations that are worth heeding. What a program returns under a script, it returns when it runs
alone (`play_returns`). -/
namespace Async

variable {E : Interface} {S α β ε : Type}

namespace Program

/-- What `p` returns, if it does, and what is remembered in the end. -/
def play (answer : (o : E.Op) → S → Option (E.Ret o) × S) : Program E α → S → Option α × S
  | .done a, s => (some a, s)
  | .perform o k, s =>
    match answer o s with
    | (some r, s) => (k r).play answer s
    | (none, s) => (none, s)

variable {answer : (o : E.Op) → S → Option (E.Ret o) × S} {s s' : S}

@[simp] theorem play_done (a : α) : (done a : Program E α).play answer s = (some a, s) := rfl

theorem play_answered {o : E.Op} {k : E.Ret o → Program E α} {r : E.Ret o} (h : answer o s = (some r, s')) :
    (perform o k).play answer s = (k r).play answer s' := by
  rw [play, h]

theorem play_stopped {o : E.Op} {k : E.Ret o → Program E α} (h : answer o s = (none, s')) :
    (perform o k).play answer s = (none, s') := by
  rw [play, h]

theorem play_bind (p : Program E α) (f : α → Program E β) :
    (p >>= f).play answer s =
      match p.play answer s with
      | (some a, s') => (f a).play answer s'
      | (none, s') => (none, s') := by
  induction p generalizing s with
  | done a => rfl
  | perform o k ih =>
    rw [perform_bind, play, play]
    rcases answer o s with ⟨_ | r, s'⟩
    · rfl
    · exact ih r

theorem play_bind_ok {p : ExceptT ε (Program E) α} {f : α → ExceptT ε (Program E) β} {a : α}
    (h : p.run.play answer s = (some (.ok a), s')) : (p >>= f).run.play answer s = (f a).run.play answer s' := by
  show (p.run >>= _).play answer s = _
  rw [play_bind, h]
  rfl

theorem play_bind_none {p : ExceptT ε (Program E) α} {f : α → ExceptT ε (Program E) β}
    (h : p.run.play answer s = (none, s')) : (p >>= f).run.play answer s = (none, s') := by
  show (p.run >>= _).play answer s = _
  rw [play_bind, h]

/-- **What a safe program owes holds in the end**, if what is known of what is remembered moves with every answer. -/
theorem play_safe {G : Type} {D : Discipline E G} {R : G → S → Prop}
    (hmove : ∀ g s o r s', R g s → D.demand g o → answer o s = (some r, s') → ∃ g', D.move g o r g' ∧ R g' s')
    {p : Program E α} {Q : G → α → Prop} {g : G} (hp : Safe D p Q g) (hR : R g s) {a : α}
    (h : p.play answer s = (some a, s')) : ∃ g', Q g' a ∧ R g' s' := by
  induction p generalizing g s with
  | done b =>
    cases h
    exact ⟨g, hp, hR⟩
  | perform o k ih =>
    obtain ⟨hdemand, hrest⟩ := hp
    cases hanswer : answer o s with
    | mk r t =>
      cases r with
      | none =>
        rw [play_stopped hanswer] at h
        cases h
      | some r =>
        rw [play_answered hanswer] at h
        obtain ⟨g', hmoved, hR'⟩ := hmove g s o r t hR hdemand hanswer
        exact ih r (hrest r g' hmoved) hR' h

/-- **What every answer keeps, the play keeps.** -/
theorem play_keeps {I : S → Prop} (hkeep : ∀ o s, I s → I (answer o s).2) (p : Program E α) (h : I s) :
    I (p.play answer s).2 := by
  induction p generalizing s with
  | done a => exact h
  | perform o k ih =>
    have hnext := hkeep o s h
    cases hanswer : answer o s with
    | mk r s' =>
      rw [hanswer] at hnext
      cases r with
      | none => rwa [play_stopped hanswer]
      | some r =>
        rw [play_answered hanswer]
        exact ih r hnext

end Program

/-! ### Machines -/

/-- Operations, and what they answered. -/
abbrev Story (E : Interface) := List ((o : E.Op) × E.Ret o)

variable {W C : Type}

/-- The machine, where the choices are made by `choose`, which knows of the operations that are heeded. -/
def Machine.scripted (M : Machine E W C) (heeds : E.Op → Bool) (choose : Story E → E.Op → C) (o : E.Op)
    (s : W × Story E) : Option (E.Ret o) × W × Story E :=
  match M.perform 0 o (choose s.2 o) s.1 with
  | some (r, w) => (some r, w, if heeds o then s.2 ++ [⟨o, r⟩] else s.2)
  | none => (none, s)

variable {M : Machine E W C} {heeds : E.Op → Bool} {choose : Story E → E.Op → C} {w w' : W}
  {story story' : Story E}

theorem scripted_some {o : E.Op} {r : E.Ret o} (h : M.perform 0 o (choose story o) w = some (r, w')) :
    M.scripted heeds choose o (w, story) = (some r, w', if heeds o then story ++ [⟨o, r⟩] else story) := by
  simp only [Machine.scripted, h]

theorem scripted_none {o : E.Op} (h : M.perform 0 o (choose story o) w = none) :
    M.scripted heeds choose o (w, story) = (none, w, story) := by
  simp only [Machine.scripted, h]

theorem scripted_eq_some {o : E.Op} {r : E.Ret o} {s s' : W × Story E}
    (h : M.scripted heeds choose o s = (some r, s')) : M.perform 0 o (choose s.2 o) s.1 = some (r, s'.1) ∧
      s'.2 = if heeds o then s.2 ++ [⟨o, r⟩] else s.2 := by
  cases hperform : M.perform 0 o (choose s.2 o) s.1 with
  | none =>
    rw [show s = (s.1, s.2) from rfl, scripted_none hperform] at h
    cases h
  | some x =>
    rw [show s = (s.1, s.2) from rfl, scripted_some hperform] at h
    cases h
    exact ⟨rfl, rfl⟩

/-- **What is returned under a script is returned by the program when it runs alone.** -/
theorem play_returns {p : Program E α} {a : α}
    (h : p.play (M.scripted heeds choose) (w, story) = (some a, w', story')) :
    Returns M (fun _ _ _ => True) p w a w' := by
  suffices hrun : ∃ ls, (⟨w, [p]⟩ : Config E W α).run M ls = some ⟨w', [.done a]⟩ by
    obtain ⟨ls, hls⟩ := hrun
    exact ⟨ls, _, hls, Config.along_of_forall (fun _ _ _ _ _ => trivial) _ _, rfl, rfl⟩
  induction p generalizing w story with
  | done b =>
    cases h
    exact ⟨[], rfl⟩
  | perform o k ih =>
    cases hperform : M.perform 0 o (choose story o) w with
    | none =>
      rw [Program.play_stopped (scripted_none hperform)] at h
      cases h
    | some x =>
      rw [Program.play_answered (scripted_some hperform)] at h
      obtain ⟨ls, hls⟩ := ih x.1 h
      refine ⟨(0, choose story o) :: ls, ?_⟩
      rw [Config.run, Config.step_perform rfl hperform]
      exact hls

end Async
