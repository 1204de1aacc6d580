import XProtocol.Async.Machine

/-! Programs that are safe whatever is known.

Some disciplines ask something of a few operations only, and of a program that these stand
in the right order. Then most of its text is safe from any knowledge, and its safety is that
of its pieces. -/
namespace Async

variable {E F : Interface} {G H ε α β : Type} {D : Discipline E G}

/-- From any knowledge the program meets every demand. -/
def Always (D : Discipline E G) (p : Program E α) : Prop := ∀ g, Safe D p (fun _ _ => True) g

/-- The same of a program that may fail. -/
def AlwaysMeets (D : Discipline E G) (p : ExceptT ε (Program E) α) : Prop := Always D p.run

theorem always_done (a : α) : Always D (.done a) := fun _ => trivial

theorem always_perform {o : E.Op} {k : E.Ret o → Program E α} (ho : ∀ g, D.demand g o)
    (hk : ∀ r, Always D (k r)) : Always D (.perform o k) := fun g => ⟨ho g, fun r g' _ => hk r g'⟩

theorem always_bind {p : Program E α} {f : α → Program E β} (hp : Always D p) (hf : ∀ a, Always D (f a)) :
    Always D (p >>= f) := fun g => (safe_bind ..).mpr (safe_mono (hp g) fun g' a _ => hf a g')

theorem always_map {p : Program E α} (hp : Always D p) (f : α → β) : Always D (f <$> p) := by
  rw [map_eq_pure_bind]
  exact always_bind hp fun a => always_done (f a)

/-- A program inside a larger interface, whose knowledge has the program's own in it. -/
theorem always_embed {D' : Discipline F H} {f : E.Op → F.Op} {back : ∀ o, F.Ret (f o) → E.Ret o} (part : H → G)
    (demand : ∀ h o, D.demand (part h) o → D'.demand h (f o))
    (move : ∀ h o r h', D'.move h (f o) r h' → D.move (part h) o (back o r) (part h')) {p : Program E α}
    (hp : Always D p) : Always D' (p.embed f back) := by
  intro h
  have hdemand (g : G) (h : H) (o : E.Op) (hg : g = part h) (hd : D.demand g o) : D'.demand h (f o) :=
    demand h o (hg ▸ hd)
  have hmove (g : G) (h : H) (o : E.Op) (r : F.Ret (f o)) (h' : H) (hg : g = part h) (_ : D.demand g o)
      (hm : D'.move h (f o) r h') : ∃ g', D.move g o (back o r) g' ∧ g' = part h' :=
    ⟨part h', hg ▸ move h o r h' hm, rfl⟩
  exact safe_mono (safe_embed hdemand hmove (hp (part h)) rfl) fun _ _ _ => trivial

/-- A program that may be dropped there. -/
theorem always_droppable {D' : Discipline F H} {f : E.Op → F.Op} {back : ∀ o, F.Ret (f o) → Option (E.Ret o)}
    (part : H → G) (demand : ∀ h o, D.demand (part h) o → D'.demand h (f o))
    (move : ∀ h o r h' b, D'.move h (f o) r h' → back o r = some b → D.move (part h) o b (part h')) {p : Program E α}
    (hp : Always D p) : Always D' (p.droppable f back) := by
  intro h
  have hdemand (g : G) (h : H) (o : E.Op) (hg : g = part h) (hd : D.demand g o) : D'.demand h (f o) :=
    demand h o (hg ▸ hd)
  have hmove (g : G) (h : H) (o : E.Op) (r : F.Ret (f o)) (h' : H) (b : E.Ret o) (hg : g = part h)
      (_ : D.demand g o) (hm : D'.move h (f o) r h') (hb : back o r = some b) :
      ∃ g', D.move g o b g' ∧ g' = part h' := ⟨part h', hg ▸ move h o r h' b hm hb, rfl⟩
  have hdrop (g : G) (h : H) (o : E.Op) (r : F.Ret (f o)) (h' : H) (_ : g = part h) (_ : D.demand g o)
      (_ : D'.move h (f o) r h') (_ : back o r = none) : (fun _ : H => True) h' := trivial
  exact safe_mono (safe_embed_droppable hdemand hmove hdrop (hp (part h)) rfl) fun _ _ _ => trivial

section Fallible

theorem alwaysMeets_pure (a : α) : AlwaysMeets D (pure a : ExceptT ε (Program E) α) := always_done _

theorem alwaysMeets_throw (e : ε) : AlwaysMeets D (throw e : ExceptT ε (Program E) α) := always_done _

theorem alwaysMeets_mk (r : Except ε α) : AlwaysMeets D (ExceptT.mk (pure r) : ExceptT ε (Program E) α) := always_done r

theorem alwaysMeets_lift {p : Program E α} (hp : Always D p) :
    AlwaysMeets D (monadLift p : ExceptT ε (Program E) α) := always_bind hp fun _ => always_done _

theorem alwaysMeets_op {o : E.Op} (ho : ∀ g, D.demand g o) :
    AlwaysMeets D (monadLift (Program.op o) : ExceptT ε (Program E) _) :=
  alwaysMeets_lift (always_perform ho always_done)

theorem alwaysMeets_bind {p : ExceptT ε (Program E) α} {f : α → ExceptT ε (Program E) β} (hp : AlwaysMeets D p)
    (hf : ∀ a, AlwaysMeets D (f a)) : AlwaysMeets D (p >>= f) := by
  refine always_bind hp fun r => ?_
  cases r with
  | ok a => exact hf a
  | error e => exact always_done _

theorem alwaysMeets_tryCatch {p : ExceptT ε (Program E) α} {f : ε → ExceptT ε (Program E) α} (hp : AlwaysMeets D p)
    (hf : ∀ e, AlwaysMeets D (f e)) : AlwaysMeets D (tryCatch p f) := by
  refine always_bind hp fun r => ?_
  cases r with
  | ok a => exact always_done _
  | error e => exact hf e

end Fallible

/-- **Tasks that are safe from any knowledge keep the invariant throughout a run.** -/
theorem throughout_always {W C : Type} {M : Machine E W C} {P : W → Nat → E.Op → C → Prop}
    {I : W → (Nat → G) → Prop} (h : Upheld M D P I) {s : Config E W α} {ls : List (Nat × C)}
    (hP : s.Along M (Config.Performs P) ls) {γ : Nat → G} (hI : I s.world γ) (hs : ∀ p ∈ s.tasks, Always D p) :
    s.Throughout M (fun s => ∃ γ, I s.world γ) ls := by
  have hkept : Kept D I (fun _ _ _ => True) s := ⟨γ, hI, fun t p hp => hs p (List.mem_of_getElem? hp) (γ t)⟩
  exact Config.throughout_mono (fun _ ⟨γ, hI, _⟩ => ⟨γ, hI⟩) (throughout_safe h hP hkept)

end Async
