import Mathlib.Algebra.Order.BigOperators.Group.Finset
import XProtocol.Async.Machine

/-! Ledgers.

Beside the world an account is kept of every task: what it has in hand, entered from its
operations and their answers alone (`after`). The ledger changes nothing of a run
(`run_forget`, `run_ledger`), and it lets an invariant speak of all tasks at once: of what
their accounts come to (`total`). A program owes each operation what the account of its
task makes due (`owing`), so that an invariant has to be kept only by operations that are
due (`run_balanced`, `throughout_balanced`). -/
namespace Async

variable {E : Interface} {W C G α : Type}

/-! ### Runs with a ledger -/

/-- The machine, with an account of each task beside the world. -/
def Machine.ledger (M : Machine E W C) (after : G → (o : E.Op) → E.Ret o → G) : Machine E (W × (Nat → G)) C where
  perform t o c w := (M.perform t o c w.1).map fun x => (x.1, x.2, Function.update w.2 t (after (w.2 t) o x.1))

namespace Config

/-- The configuration with a ledger. -/
def withLedger (s : Config E W α) (γ : Nat → G) : Config E (W × (Nat → G)) α := ⟨(s.world, γ), s.tasks⟩

/-- The configuration without its ledger. -/
def forget (s : Config E (W × (Nat → G)) α) : Config E W α := ⟨s.world.1, s.tasks⟩

section Following
variable {M : Machine E W C} (after : G → (o : E.Op) → E.Ret o → G)

theorem step_ledger {s s' : Config E W α} {l : Nat × C} (h : s.step M l = some s') (γ : Nat → G) :
    ∃ γ', (s.withLedger γ).step (M.ledger after) l = some (s'.withLedger γ') := by
  obtain ⟨t, c⟩ := l
  obtain ⟨o, k, r, w, hp, hw, rfl⟩ := step_eq_some h
  have hledger : (M.ledger after).perform t o c (s.world, γ) =
      some (r, w, Function.update γ t (after (γ t) o r)) := by
    simp [Machine.ledger, hw]
  exact ⟨_, step_perform (s := s.withLedger γ) hp hledger⟩

/-- **Every run can be followed by a ledger.** -/
theorem run_ledger {s s' : Config E W α} {ls : List (Nat × C)} (h : s.run M ls = some s') (γ : Nat → G) :
    ∃ γ', (s.withLedger γ).run (M.ledger after) ls = some (s'.withLedger γ') := by
  induction ls generalizing s γ with
  | nil =>
    cases h
    exact ⟨γ, rfl⟩
  | cons l rest ih =>
    obtain ⟨m, hm, hrest⟩ := run_cons h
    obtain ⟨γ₁, hstep⟩ := step_ledger after hm γ
    obtain ⟨γ', hrun⟩ := ih hrest γ₁
    exact ⟨γ', by simp only [run, hstep, Option.bind_some, hrun]⟩

theorem along_forget {P : W → Nat → E.Op → C → Prop} {s : Config E W α} {γ : Nat → G} {ls : List (Nat × C)}
    (h : (s.withLedger γ).Along (M.ledger after) (Performs fun w => P w.1) ls) : s.Along M (Performs P) ls := by
  induction ls generalizing s γ with
  | nil => trivial
  | cons l rest ih =>
    refine ⟨h.1, fun s' hs' => ?_⟩
    obtain ⟨γ', hγ'⟩ := step_ledger after hs' γ
    exact ih (h.2 _ hγ')

variable {after}

theorem step_ledger_eq_some {s s' : Config E (W × (Nat → G)) α} {t : Nat} {c : C}
    (h : s.step (M.ledger after) (t, c) = some s') :
    ∃ o k r w, s.tasks[t]? = some (.perform o k) ∧ M.perform t o c s.world.1 = some (r, w) ∧
      s' = ⟨(w, Function.update s.world.2 t (after (s.world.2 t) o r)), s.tasks.set t (k r)⟩ := by
  obtain ⟨o, k, r, w, hp, hw, rfl⟩ := step_eq_some h
  obtain ⟨x, hx, heq⟩ := Option.map_eq_some_iff.mp hw
  cases heq
  exact ⟨o, k, x.1, x.2, hp, hx, rfl⟩

theorem step_forget {s s' : Config E (W × (Nat → G)) α} {l : Nat × C} (h : s.step (M.ledger after) l = some s') :
    s.forget.step M l = some s'.forget := by
  obtain ⟨t, c⟩ := l
  obtain ⟨o, k, r, w, hp, hw, rfl⟩ := step_ledger_eq_some h
  exact step_perform (s := s.forget) hp hw

/-- A run with a ledger is one without. -/
theorem run_forget {s s' : Config E (W × (Nat → G)) α} {ls : List (Nat × C)}
    (h : s.run (M.ledger after) ls = some s') : s.forget.run M ls = some s'.forget := by
  induction ls generalizing s with
  | nil =>
    cases h
    rfl
  | cons l rest ih =>
    obtain ⟨m, hm, hrest⟩ := run_cons h
    simp only [run, step_forget hm, Option.bind_some, ih hrest]

theorem along_ledger {P : W → Nat → E.Op → C → Prop} {s : Config E W α} {ls : List (Nat × C)}
    (h : s.Along M (Performs P) ls) (γ : Nat → G) :
    (s.withLedger γ).Along (M.ledger after) (Performs fun w => P w.1) ls := by
  induction ls generalizing s γ with
  | nil => trivial
  | cons l rest ih =>
    refine ⟨h.1, fun s' hs' => ?_⟩
    exact ih (h.2 s'.forget (step_forget hs')) s'.world.2

/-- The account of a task that has not moved is as it was. -/
theorem run_unmoved {s s' : Config E (W × (Nat → G)) α} {ls : List (Nat × C)}
    (h : s.run (M.ledger after) ls = some s') {t : Nat} (ht : t ∉ ls.map Prod.fst) :
    s'.world.2 t = s.world.2 t := by
  induction ls generalizing s with
  | nil =>
    cases h
    rfl
  | cons l rest ih =>
    obtain ⟨m, hm, hrest⟩ := run_cons h
    obtain ⟨u, c⟩ := l
    simp only [List.map_cons, List.mem_cons, not_or] at ht
    obtain ⟨o, k, r, w, -, -, rfl⟩ := step_ledger_eq_some hm
    rw [ih hrest ht.2]
    exact Function.update_of_ne ht.1 _ _

end Following

/-! ### Runs with notes -/

end Config

/-- The machine, with what each task notes of its operations, the world before them in view. -/
def Machine.noting (M : Machine E W C) (note : W → (o : E.Op) → E.Ret o → List G) :
    Machine E (W × (Nat → List G)) C where
  perform t o c w := (M.perform t o c w.1).map fun x =>
    (x.1, x.2, Function.update w.2 t (w.2 t ++ note w.1 o x.1))

namespace Config

/-- **Every run can be followed by notes.** -/
theorem run_noting {M : Machine E W C} (note : W → (o : E.Op) → E.Ret o → List G) {s s' : Config E W α}
    {ls : List (Nat × C)} (h : s.run M ls = some s') (γ : Nat → List G) :
    ∃ γ', (s.withLedger γ).run (M.noting note) ls = some (s'.withLedger γ') := by
  induction ls generalizing s γ with
  | nil =>
    cases h
    exact ⟨γ, rfl⟩
  | cons l rest ih =>
    obtain ⟨m, hm, hrest⟩ := run_cons h
    obtain ⟨t, c⟩ := l
    obtain ⟨o, k, r, w, hp, hw, rfl⟩ := step_eq_some hm
    have hnoting : (M.noting note).perform t o c (s.world, γ) =
        some (r, w, Function.update γ t (γ t ++ note s.world o r)) := by
      simp [Machine.noting, hw]
    obtain ⟨γ', hrun⟩ := ih hrest (Function.update γ t (γ t ++ note s.world o r))
    exact ⟨γ', by simp only [run, step_perform (s := s.withLedger γ) hp hnoting, Option.bind_some]; exact hrun⟩

/-! ### The tasks of a run -/

section Tasks
variable {M : Machine E W C}

theorem step_length {s s' : Config E W α} {l : Nat × C} (h : s.step M l = some s') :
    s'.tasks.length = s.tasks.length := by
  obtain ⟨o, k, r, w, -, -, rfl⟩ := step_eq_some h
  exact List.length_set

theorem run_length {s s' : Config E W α} {ls : List (Nat × C)} (h : s.run M ls = some s') :
    s'.tasks.length = s.tasks.length :=
  run_keeps (P := fun _ _ => True) (I := fun m => m.tasks.length = s.tasks.length)
    (fun _ _ _ hI _ hs => (step_length hs).trans hI) h (along_of_forall (fun _ _ => trivial) s ls) rfl

theorem throughout_length (s : Config E W α) (ls : List (Nat × C)) :
    s.Throughout M (fun m => m.tasks.length = s.tasks.length) ls :=
  throughout_of_keeps (P := fun _ _ => True) (fun _ _ _ hI _ hs => (step_length hs).trans hI)
    (along_of_forall (fun _ _ => trivial) s ls) rfl

/-- Only the tasks move. -/
theorem along_tasks (s : Config E W α) (ls : List (Nat × C)) :
    s.Along M (Performs fun _ t _ _ => t < s.tasks.length) ls := by
  generalize hn : s.tasks.length = n
  induction ls generalizing s with
  | nil => trivial
  | cons l rest ih =>
    refine ⟨fun o k hp => ?_, fun s' hs' => ih s' ((step_length hs').trans hn)⟩
    exact hn ▸ (List.getElem?_eq_some_iff.mp hp).1

/-- What a step leaves behind that does not meet `P`, and no step takes away, tells whether
every step has met it. -/
theorem along_of_unmarked {P : Config E W α → Nat × C → Prop} (marked : Config E W α → Prop)
    (mark : ∀ s l s', s.step M l = some s' → ¬ P s l → marked s')
    (keep : ∀ s l s', s.step M l = some s' → marked s → marked s') {s s' : Config E W α}
    {ls : List (Nat × C)} (h : s.run M ls = some s') (hnot : ¬ marked s') : s.Along M P ls := by
  induction ls generalizing s with
  | nil => trivial
  | cons l rest ih =>
    obtain ⟨m, hm, hrest⟩ := run_cons h
    refine ⟨?_, fun m' hm' => ?_⟩
    · by_contra hP
      have hkept : marked s' := run_keeps (P := fun _ _ => True) (fun s l s' hI _ hs => keep s l s' hs hI) hrest
        (along_of_forall (fun _ _ => trivial) m rest) (mark s l m hm hP)
      exact hnot hkept
    · obtain rfl : m = m' := Option.some.inj (hm.symm.trans hm')
      exact ih hrest

end Tasks

end Config

/-! ### Accounts as knowledge -/

/-- A task knows its account, and owes each operation what the account makes due. -/
def owing (demand : G → E.Op → Prop) (after : G → (o : E.Op) → E.Ret o → G) : Discipline E G where
  demand := demand
  move g o r g' := g' = after g o r

section Owing
variable {M : Machine E W C} {demand : G → E.Op → Prop} {after : G → (o : E.Op) → E.Ret o → G}
  {P : W × (Nat → G) → Nat → E.Op → C → Prop} {J : W → (Nat → G) → Prop} {Q : Nat → G → α → Prop}

theorem safe_owing {o : E.Op} {k : E.Ret o → Program E α} {Q : G → α → Prop} {g : G} :
    Safe (owing demand after) (.perform o k) Q g ↔
      demand g o ∧ ∀ r, Safe (owing demand after) (k r) Q (after g o r) := by
  rw [safe_perform]
  exact and_congr_right fun _ => ⟨fun h r => h r _ rfl, fun h r _ hm => hm ▸ h r⟩

/-- One operation of a program that may fail, and what follows. -/
theorem meets_owing {ε : Type} {o : E.Op} {f : E.Ret o → ExceptT ε (Program E) α} {Q : G → α → Prop}
    {R : G → ε → Prop} {g : G} (hd : demand g o) (h : ∀ r, Meets (owing demand after) (f r) Q R (after g o r)) :
    Meets (owing demand after) ((monadLift (Program.op o) : ExceptT ε (Program E) _) >>= f) Q R g := by
  rw [meets_bind, meets_lift, safe_op]
  exact ⟨hd, fun r g' hm => hm ▸ h r⟩

/-- What every operation of a program keeps, it keeps. -/
theorem safe_embed_owing {F : Interface} {f : F.Op → E.Op} {back : ∀ o, E.Ret (f o) → F.Ret o} {β : Type}
    {I : G → Prop} (hd : ∀ g o, I g → demand g (f o)) (hafter : ∀ g o r, I g → I (after g (f o) r))
    (p : Program F β) {g : G} (hg : I g) : Safe (owing demand after) (p.embed f back) (fun g' _ => I g') g := by
  induction p generalizing g with
  | done b => exact hg
  | perform o k ih => exact safe_owing.mpr ⟨hd g o hg, fun r => ih _ (hafter g o r hg)⟩

theorem safe_droppable_owing {F : Interface} {f : F.Op → E.Op} {back : ∀ o, E.Ret (f o) → Option (F.Ret o)}
    {β : Type} {I : G → Prop} (hd : ∀ g o, I g → demand g (f o)) (hafter : ∀ g o r, I g → I (after g (f o) r))
    (p : Program F β) {g : G} (hg : I g) :
    Safe (owing demand after) (p.droppable f back) (fun g' _ => I g') g := by
  induction p generalizing g with
  | done b => exact hg
  | perform o k ih =>
    rw [Program.droppable, safe_owing]
    refine ⟨hd g o hg, fun r => ?_⟩
    have hr := hafter g o r hg
    cases back o r with
    | none => exact hr
    | some b => exact ih b hr

/-- The ledger is in balance, and every task is safe with its account. -/
def Balanced (D : Discipline E G) (J : W → (Nat → G) → Prop) (Q : Nat → G → α → Prop)
    (s : Config E (W × (Nat → G)) α) : Prop :=
  J s.world.1 s.world.2 ∧ ∀ t p, s.tasks[t]? = some p → Safe D p (Q t) (s.world.2 t)

theorem kept_ledger {D : Discipline E G} {s : Config E (W × (Nat → G)) α} :
    Kept D (fun w γ => w.2 = γ ∧ J w.1 γ) Q s ↔ Balanced D J Q s := by
  constructor
  · rintro ⟨γ, ⟨rfl, hJ⟩, hsafe⟩
    exact ⟨hJ, hsafe⟩
  · rintro ⟨hJ, hsafe⟩
    exact ⟨_, ⟨rfl, hJ⟩, hsafe⟩

/-- The operations that are due keep the ledger in balance. -/
def Keeps (M : Machine E W C) (demand : G → E.Op → Prop) (after : G → (o : E.Op) → E.Ret o → G)
    (P : W × (Nat → G) → Nat → E.Op → C → Prop) (J : W → (Nat → G) → Prop) : Prop :=
  ∀ w γ t o c r w', J w γ → demand (γ t) o → P (w, γ) t o c → M.perform t o c w = some (r, w') →
    J w' (Function.update γ t (after (γ t) o r))

theorem Keeps.upheld (h : Keeps M demand after P J) :
    Upheld (M.ledger after) (owing demand after) P fun w γ => w.2 = γ ∧ J w.1 γ := by
  rintro ⟨w, γ⟩ _ t o c r w' ⟨rfl, hJ⟩ hd hP hstep
  obtain ⟨x, hx, heq⟩ := Option.map_eq_some_iff.mp hstep
  cases heq
  exact ⟨_, rfl, rfl, h w γ t o c x.1 x.2 hJ hd hP hx⟩

/-- **Every run of permitted steps ends in balance.** -/
theorem run_balanced (h : Keeps M demand after P J) {s s' : Config E (W × (Nat → G)) α} {ls : List (Nat × C)}
    (hrun : s.run (M.ledger after) ls = some s') (hP : s.Along (M.ledger after) (Config.Performs P) ls)
    (hs : Balanced (owing demand after) J Q s) : Balanced (owing demand after) J Q s' :=
  kept_ledger.mp (run_safe h.upheld hrun hP (kept_ledger.mpr hs))

variable (after) in
/-- Nothing is entered for others than the tasks. -/
theorem throughout_spare (s : Config E (W × (Nat → G)) α) (ls : List (Nat × C)) :
    s.Throughout (M.ledger after) (fun m => ∀ u, s.tasks.length ≤ u → m.world.2 u = s.world.2 u) ls := by
  have hkeep (m : Config E (W × (Nat → G)) α) (l : Nat × C) (m' : Config E (W × (Nat → G)) α)
      (h : m.tasks.length = s.tasks.length ∧ ∀ u, s.tasks.length ≤ u → m.world.2 u = s.world.2 u) (_ : True)
      (hs : m.step (M.ledger after) l = some m') :
      m'.tasks.length = s.tasks.length ∧ ∀ u, s.tasks.length ≤ u → m'.world.2 u = s.world.2 u := by
    refine ⟨(Config.step_length hs).trans h.1, fun u hu => ?_⟩
    obtain ⟨o, k, r, w, htask, hperform, rfl⟩ := Config.step_eq_some hs
    obtain ⟨x, -, heq⟩ := Option.map_eq_some_iff.mp hperform
    cases heq
    have hlt : l.1 < m.tasks.length := (List.getElem?_eq_some_iff.mp htask).1
    exact (Function.update_of_ne (by omega) ..).trans (h.2 u hu)
  exact Config.throughout_mono (fun _ h => h.2) (Config.throughout_of_keeps hkeep
    (Config.along_of_forall (fun _ _ => trivial) s ls) ⟨rfl, fun _ _ => rfl⟩)

theorem throughout_balanced (h : Keeps M demand after P J) {s : Config E (W × (Nat → G)) α} {ls : List (Nat × C)}
    (hP : s.Along (M.ledger after) (Config.Performs P) ls) (hs : Balanced (owing demand after) J Q s) :
    s.Throughout (M.ledger after) (Balanced (owing demand after) J Q) ls :=
  Config.throughout_mono (fun _ => kept_ledger.mp) (throughout_safe h.upheld hP (kept_ledger.mpr hs))

theorem Balanced.returned {D : Discipline E G} {s : Config E (W × (Nat → G)) α} (h : Balanced D J Q s) {t : Nat}
    {a : α} (ha : s.returned t = some a) : Q t (s.world.2 t) a := by
  unfold Config.returned at ha
  split at ha
  · next b hb =>
    cases ha
    exact h.2 t _ hb
  · cases ha

/-- The next operation of a task is due. -/
theorem Balanced.due {s : Config E (W × (Nat → G)) α} (h : Balanced (owing demand after) J Q s) {t : Nat}
    {o : E.Op} {k : E.Ret o → Program E α} (hp : s.tasks[t]? = some (.perform o k)) : demand (s.world.2 t) o :=
  (safe_owing.mp (h.2 t _ hp)).1

end Owing

/-! ### What the accounts come to -/

/-- What the accounts of the first `n` tasks come to. -/
def total (n : Nat) (f : G → Nat) (γ : Nat → G) : Nat := ∑ t ∈ Finset.range n, f (γ t)

section Total
variable {n t : Nat} {f f' : G → Nat} {γ : Nat → G}

/-- An entry changes the total by what it changes the one account. -/
theorem total_update (ht : t < n) (g : G) :
    total n f (Function.update γ t g) + f (γ t) = total n f γ + f g := by
  have hmem : t ∈ Finset.range n := Finset.mem_range.mpr ht
  have hrest : ∑ u ∈ (Finset.range n).erase t, f (Function.update γ t g u) =
      ∑ u ∈ (Finset.range n).erase t, f (γ u) :=
    Finset.sum_congr rfl fun u hu => by rw [Function.update_of_ne (Finset.ne_of_mem_erase hu)]
  unfold total
  rw [← Finset.add_sum_erase _ _ hmem, ← Finset.add_sum_erase (Finset.range n) (fun u => f (γ u)) hmem, hrest,
    Function.update_self]
  omega

/-- The account of a task that is not among the first makes no difference. -/
theorem total_beyond (ht : ¬ t < n) (g : G) : total n f (Function.update γ t g) = total n f γ :=
  Finset.sum_congr rfl fun u hu => by
    rw [Function.update_of_ne]
    rintro rfl
    exact ht (Finset.mem_range.mp hu)

theorem total_succ (n : Nat) (f : G → Nat) (γ : Nat → G) : total (n + 1) f γ = total n f γ + f (γ n) :=
  Finset.sum_range_succ ..

theorem le_total (ht : t < n) : f (γ t) ≤ total n f γ :=
  Finset.single_le_sum (f := fun u => f (γ u)) (fun _ _ => Nat.zero_le _) (Finset.mem_range.mpr ht)

/-- If all other accounts come to nothing, the total is what the one comes to. -/
theorem total_alone (ht : t < n) (h : ∀ u < n, u ≠ t → f (γ u) = 0) : total n f γ = f (γ t) :=
  Finset.sum_eq_single_of_mem (f := fun u => f (γ u)) t (Finset.mem_range.mpr ht) fun u hu hut =>
    h u (Finset.mem_range.mp hu) hut

theorem total_eq_zero : total n f γ = 0 ↔ ∀ u < n, f (γ u) = 0 := by
  simp [total]

theorem total_mono (h : ∀ u < n, f (γ u) ≤ f' (γ u)) : total n f γ ≤ total n f' γ :=
  Finset.sum_le_sum fun u hu => h u (Finset.mem_range.mp hu)

/-- At most as many programs are where `p` says as the accounts say. -/
theorem countP_le_total {β : Type} {ps : List β} {p : β → Bool}
    (h : ∀ t a, ps[t]? = some a → p a = true → 1 ≤ f (γ t)) : ps.countP p ≤ total ps.length f γ := by
  induction ps generalizing γ with
  | nil => exact Nat.zero_le _
  | cons a rest ih =>
    have hrest : rest.countP p ≤ total rest.length f fun t => γ (t + 1) := ih fun t b hb => h (t + 1) b hb
    have hsum : total (rest.length + 1) f γ = total rest.length f (fun t => γ (t + 1)) + f (γ 0) :=
      Finset.sum_range_succ' _ _
    rw [List.countP_cons, List.length_cons, hsum]
    split
    · next ha =>
      have hfirst := h 0 a rfl ha
      omega
    · omega

end Total

end Async
