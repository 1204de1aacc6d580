import Mathlib.Logic.Function.Basic

/-! Programs over an interface of operations.

An asynchronous function is a tree: it has returned, or it performs an operation
and continues with the answer. Nothing is said here about what an operation
does; that is a machine's business (`Async/Machine.lean`). So one program text
can be run against several machines, stopped between any two operations, or
dropped there.

What a program may rely on and what it owes are given by a `Discipline`: local
knowledge `G`, what each operation demands of it, and how an answer moves it.
`Safe D p Q g` says that `p`, started with knowledge `g`, meets every demand and
ends in `Q`. It is computed along the tree, so the proof that a program text is
safe follows the text (`safe_bind`, `safe_perform`). -/
namespace Async

/-- What a program may do: the operations, and what each answers. -/
structure Interface where
  Op : Type
  Ret : Op → Type

/-- A program: returned, or performing an operation and continuing with its answer. -/
inductive Program (E : Interface) (α : Type) : Type where
  | done (a : α)
  | perform (o : E.Op) (k : E.Ret o → Program E α)

namespace Program
variable {E F : Interface} {α β : Type}

/-- Run `p`, then `f` on what it returned. -/
protected def bind : Program E α → (α → Program E β) → Program E β
  | done a, f => f a
  | perform o k, f => perform o fun r => (k r).bind f

instance : Monad (Program E) where
  pure := done
  bind := Program.bind

/-- One operation, as a program. -/
def op (o : E.Op) : Program E (E.Ret o) := perform o done

@[simp] theorem pure_eq (a : α) : (pure a : Program E α) = done a := rfl

@[simp] theorem done_bind (a : α) (f : α → Program E β) : done a >>= f = f a := rfl

@[simp] theorem perform_bind (o : E.Op) (k : E.Ret o → Program E α) (f : α → Program E β) :
    perform o k >>= f = perform o fun r => k r >>= f := rfl

@[simp] theorem op_bind (o : E.Op) (f : E.Ret o → Program E β) : op o >>= f = perform o f := rfl

theorem bind_done (p : Program E α) : p >>= done = p := by
  induction p with
  | done a => rfl
  | perform o k ih => exact congrArg (perform o) (funext ih)

theorem bind_assoc {γ : Type} (p : Program E α) (f : α → Program E β) (g : β → Program E γ) :
    p >>= f >>= g = p >>= fun a => f a >>= g := by
  induction p with
  | done a => rfl
  | perform o k ih => exact congrArg (perform o) (funext ih)

instance : LawfulMonad (Program E) :=
  LawfulMonad.mk' _ (fun p => bind_done p) (fun _ _ => rfl) bind_assoc

/-- The same program over a larger interface. -/
def embed (f : E.Op → F.Op) (back : ∀ o, F.Ret (f o) → E.Ret o) : Program E α → Program F α
  | done a => done a
  | perform o k => perform (f o) fun r => (k (back o r)).embed f back

@[simp] theorem embed_done (f : E.Op → F.Op) (back : ∀ o, F.Ret (f o) → E.Ret o) (a : α) :
    (done a : Program E α).embed f back = done a := rfl

@[simp] theorem embed_perform (f : E.Op → F.Op) (back : ∀ o, F.Ret (f o) → E.Ret o) (o : E.Op)
    (k : E.Ret o → Program E α) :
    (perform o k).embed f back = perform (f o) fun r => (k (back o r)).embed f back := rfl

end Program

/-! ### Dropping

A future may be dropped wherever it waits. Then nothing more of it runs: its
operation answers nothing, and there is no result. -/

/-- The same operations, each of which may end with the program being dropped there. -/
abbrev Interface.droppable (E : Interface) : Interface := ⟨E.Op, fun o => Option (E.Ret o)⟩

/-- A program over a larger interface, as a future that may be dropped: an operation
that answers nothing is where it was, and the result is `none` then. -/
def Program.droppable {E F : Interface} {α : Type} (f : E.Op → F.Op)
    (back : ∀ o, F.Ret (f o) → Option (E.Ret o)) : Program E α → Program F (Option α)
  | .done a => .done (some a)
  | .perform o k => .perform (f o) fun r =>
    match back o r with
    | some r => (k r).droppable f back
    | none => .done none

/-- A program as a future that may be dropped at any operation. -/
def Program.dropping {E : Interface} {α : Type} (p : Program E α) : Program E.droppable (Option α) :=
  @Program.droppable E E.droppable α id (fun _ r => r) p

/-- Programs one after the other, and what each has returned. -/
def Program.inTurn {E : Interface} {α : Type} : List (Program E α) → Program E (List α)
  | [] => .done []
  | p :: rest => p >>= fun a => inTurn rest >>= fun as => .done (a :: as)

/-! ### Disciplines -/

/-- Local knowledge `G` about a running program: what an operation demands of it,
and what it may become once the operation has answered `r`. -/
structure Discipline (E : Interface) (G : Type) where
  demand : G → E.Op → Prop
  move : G → (o : E.Op) → E.Ret o → G → Prop

section Safe
variable {E F : Interface} {G α β : Type}

/-- From knowledge `g` the program meets every demand and returns in `Q`. -/
def Safe (D : Discipline E G) : Program E α → (G → α → Prop) → G → Prop
  | .done a, Q, g => Q g a
  | .perform o k, Q, g => D.demand g o ∧ ∀ r g', D.move g o r g' → Safe D (k r) Q g'

variable {D : Discipline E G}

@[simp] theorem safe_done (a : α) (Q : G → α → Prop) (g : G) : Safe D (.done a) Q g ↔ Q g a := Iff.rfl

@[simp] theorem safe_perform (o : E.Op) (k : E.Ret o → Program E α) (Q : G → α → Prop) (g : G) :
    Safe D (.perform o k) Q g ↔
      D.demand g o ∧ ∀ r g', D.move g o r g' → Safe D (k r) Q g' := Iff.rfl

theorem safe_op (o : E.Op) (Q : G → E.Ret o → Prop) (g : G) :
    Safe D (Program.op o) Q g ↔ D.demand g o ∧ ∀ r g', D.move g o r g' → Q g' r := Iff.rfl

/-- Sequencing: the first program has to end where the second is safe. -/
theorem safe_bind (p : Program E α) (f : α → Program E β) (Q : G → β → Prop) (g : G) :
    Safe D (p >>= f) Q g ↔ Safe D p (fun g' a => Safe D (f a) Q g') g := by
  induction p generalizing g with
  | done a => rfl
  | perform o k ih =>
    simp only [Program.perform_bind, safe_perform, ih]

theorem safe_mono {p : Program E α} {Q R : G → α → Prop} {g : G} (h : Safe D p Q g)
    (hQR : ∀ g a, Q g a → R g a) : Safe D p R g := by
  induction p generalizing g with
  | done a => exact hQR g a h
  | perform o k ih => exact ⟨h.1, fun r g' hm => ih r (h.2 r g' hm)⟩

/-- What is safe twice over is safe for both. -/
theorem safe_and {p : Program E α} {Q R : G → α → Prop} {g : G} (hQ : Safe D p Q g) (hR : Safe D p R g) :
    Safe D p (fun g a => Q g a ∧ R g a) g := by
  induction p generalizing g with
  | done a => exact ⟨hQ, hR⟩
  | perform o k ih => exact ⟨hQ.1, fun r g' hm => ih r (hQ.2 r g' hm) (hR.2 r g' hm)⟩

/-- A program keeps its safety inside a larger interface, whose knowledge `h` holds
the program's own `g` (`holds g h`): a demand met by `g` is met by `h`, and a move
of `h` is one of `g`. -/
theorem safe_embed {H : Type} {D' : Discipline F H} {f : E.Op → F.Op}
    {back : ∀ o, F.Ret (f o) → E.Ret o} {holds : G → H → Prop}
    (demand : ∀ g h o, holds g h → D.demand g o → D'.demand h (f o))
    (move : ∀ g h o r h', holds g h → D.demand g o → D'.move h (f o) r h' →
      ∃ g', D.move g o (back o r) g' ∧ holds g' h')
    {p : Program E α} {Q : G → α → Prop} {g : G} {h : H} (hp : Safe D p Q g) (hgh : holds g h) :
    Safe D' (p.embed f back) (fun h a => ∃ g, holds g h ∧ Q g a) h := by
  induction p generalizing g h with
  | done a => exact ⟨g, hgh, hp⟩
  | perform o k ih =>
    refine ⟨demand g h o hgh hp.1, fun r h' hm => ?_⟩
    obtain ⟨g', hg', hgh'⟩ := move g h o r h' hgh hp.1 hm
    exact ih _ (hp.2 _ g' hg') hgh'

/-- The same for a program that may be dropped there; `left` is what its being
dropped leaves behind. -/
theorem safe_embed_droppable {H : Type} {D' : Discipline F H} {f : E.Op → F.Op}
    {back : ∀ o, F.Ret (f o) → Option (E.Ret o)} {holds : G → H → Prop} {left : H → Prop}
    (demand : ∀ g h o, holds g h → D.demand g o → D'.demand h (f o))
    (move : ∀ g h o r h' b, holds g h → D.demand g o → D'.move h (f o) r h' → back o r = some b →
      ∃ g', D.move g o b g' ∧ holds g' h')
    (drop : ∀ g h o r h', holds g h → D.demand g o → D'.move h (f o) r h' → back o r = none → left h')
    {p : Program E α} {Q : G → α → Prop} {g : G} {h : H} (hp : Safe D p Q g) (hgh : holds g h) :
    Safe D' (p.droppable f back)
      (fun h a => (∀ b, a = some b → ∃ g, holds g h ∧ Q g b) ∧ (a = none → left h)) h := by
  induction p generalizing g h with
  | done a =>
    refine (safe_done ..).mpr ⟨fun b hb => ⟨g, hgh, ?_⟩, nofun⟩
    cases hb
    exact hp
  | perform o k ih =>
    rw [Program.droppable, safe_perform]
    refine ⟨demand g h o hgh hp.1, fun r h' hm => ?_⟩
    cases hr : back o r with
    | none =>
      exact ⟨nofun, fun _ => drop g h o r h' hgh hp.1 hm hr⟩
    | some b =>
      obtain ⟨g', hg', hgh'⟩ := move g h o r h' b hgh hp.1 hm hr
      exact ih b (hp.2 b g' hg') hgh'

/-- What holds between the programs holds when all of them are done. -/
theorem safe_inTurn {I : G → Prop} {ps : List (Program E α)}
    (h : ∀ p ∈ ps, ∀ g, I g → Safe D p (fun g _ => I g) g) {g : G} (hg : I g) :
    Safe D (Program.inTurn ps) (fun g _ => I g) g := by
  induction ps generalizing g with
  | nil => exact hg
  | cons p rest ih =>
    rw [Program.inTurn, safe_bind]
    refine safe_mono (h p (List.mem_cons_self ..) g hg) fun g _ hg => ?_
    rw [safe_bind]
    exact safe_mono (ih (fun q hq => h q (List.mem_cons_of_mem _ hq)) hg) fun _ _ hg => hg

end Safe

/-! ### Programs that may fail

A program with an error type ends well or with an error, and owes something either way. -/

/-- A result owes `Q`, an error owes `R`. -/
def Ends {G ε α : Type} (Q : G → α → Prop) (R : G → ε → Prop) (g : G) : Except ε α → Prop
  | .ok a => Q g a
  | .error e => R g e

/-- From knowledge `g` the program meets every demand, and ends in `Q` or with an error in `R`. -/
def Meets {E : Interface} {G ε α : Type} (D : Discipline E G) (p : ExceptT ε (Program E) α)
    (Q : G → α → Prop) (R : G → ε → Prop) (g : G) : Prop := Safe D p.run (Ends Q R) g

section Meets
variable {E : Interface} {G ε α β : Type} {D : Discipline E G} {Q : G → α → Prop} {R : G → ε → Prop}
  {g : G}

@[simp] theorem ends_ok (a : α) : Ends Q R g (.ok a) ↔ Q g a := Iff.rfl

@[simp] theorem ends_error (e : ε) : Ends Q R g (.error e : Except ε α) ↔ R g e := Iff.rfl

theorem Ends.mono {r : Except ε α} (h : Ends Q R g r) {Q' : G → α → Prop} {R' : G → ε → Prop} {g' : G}
    (hQ : ∀ a, Q g a → Q' g' a) (hR : ∀ e, R g e → R' g' e) : Ends Q' R' g' r := by
  cases r with
  | ok a => exact hQ a h
  | error e => exact hR e h

@[simp] theorem meets_pure (a : α) : Meets D (pure a : ExceptT ε (Program E) α) Q R g ↔ Q g a := Iff.rfl

@[simp] theorem meets_throw (e : ε) :
    Meets D (throw e : ExceptT ε (Program E) α) Q R g ↔ R g e := Iff.rfl

/-- Sequencing: an error of the first program is an error of the whole. -/
theorem meets_bind {p : ExceptT ε (Program E) α} {f : α → ExceptT ε (Program E) β} {Q : G → β → Prop} :
    Meets D (p >>= f) Q R g ↔ Meets D p (fun g a => Meets D (f a) Q R g) R g := by
  unfold Meets
  rw [ExceptT.run_bind, safe_bind]
  constructor <;> intro h <;> refine safe_mono h fun g r hr => ?_ <;> cases r <;> exact hr

/-- Catching: an error of the first program is not one of the whole. -/
theorem meets_tryCatch {p : ExceptT ε (Program E) α} {f : ε → ExceptT ε (Program E) α} :
    Meets D (tryCatch p f) Q R g ↔ Meets D p Q (fun g e => Meets D (f e) Q R g) g := by
  show Safe D (p.run >>= fun r => match r with
    | .ok a => .done (.ok a)
    | .error e => (f e).run) _ g ↔ _
  rw [safe_bind]
  constructor <;> intro h <;> refine safe_mono h fun g r hr => ?_ <;> cases r <;> exact hr

/-- A program without errors of its own. -/
theorem meets_lift {p : Program E α} :
    Meets D (monadLift p : ExceptT ε (Program E) α) Q R g ↔ Safe D p Q g := by
  show Safe D (p >>= fun a => Program.done (Except.ok a)) _ g ↔ _
  rw [safe_bind]
  rfl

/-- A result as a program. -/
theorem meets_mk (r : Except ε α) :
    Meets D (ExceptT.mk (pure r) : ExceptT ε (Program E) α) Q R g ↔ Ends Q R g r := Iff.rfl

theorem meets_mono {p : ExceptT ε (Program E) α} (h : Meets D p Q R g) {Q' : G → α → Prop}
    {R' : G → ε → Prop} (hQ : ∀ g a, Q g a → Q' g a) (hR : ∀ g e, R g e → R' g e) :
    Meets D p Q' R' g :=
  safe_mono h fun g _ hr => hr.mono (hQ g) (hR g)

/-- A program's result, an error or not, as a value of another type. -/
theorem safe_map {p : ExceptT ε (Program E) α} (h : Meets D p Q R g) {f : Except ε α → β} {Q' : G → β → Prop}
    (hQ : ∀ g a, Q g a → Q' g (f (.ok a))) (hR : ∀ g e, R g e → Q' g (f (.error e))) :
    Safe D (f <$> p.run) Q' g := by
  rw [map_eq_pure_bind, safe_bind]
  refine safe_mono h fun g r hr => ?_
  cases r with
  | ok a => exact hQ g a hr
  | error e => exact hR g e hr

end Meets

end Async
