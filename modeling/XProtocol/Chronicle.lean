import Mathlib.Data.List.Induction

/-! Objects that are asked one thing at a time.

An object answers what it is asked, and goes into another state. What it was asked, when, and
what it answered is its chronicle. A contract says what an answer is due to, given the
entries before it (`Due`); it is proved from what a state has to do with the entries that
led to it, which every single step keeps (`kept`, `kept_sorted`, `due_of_step`). Two objects of which one
stands for the other enter the same answers (`chronicle_simulated`), and entries that leave
an object as it was can be left out (`chronicle_filter`). -/
namespace Chronicle

/-- What was asked when, and the answer. -/
structure Entry (Q A : Type) where
  time : Nat
  query : Q
  answer : A

variable {S S' Q Q' A A' : Type}

section
variable (step : S → Nat → Q → A × S)

/-- What is entered of an object in state `s` that is asked these, one after the other. -/
def chronicle : S → List (Nat × Q) → List (Entry Q A)
  | _, [] => []
  | s, (now, q) :: rest => ⟨now, q, (step s now q).1⟩ :: chronicle (step s now q).2 rest

/-- The object behind them. -/
def after (s : S) (asked : List (Nat × Q)) : S := asked.foldl (fun s q => (step s q.1 q.2).2) s

variable (s : S) (asked : List (Nat × Q)) (now : Nat) (q : Q)

theorem after_snoc : after step s (asked ++ [(now, q)]) = (step (after step s asked) now q).2 :=
  List.foldl_append

theorem after_append (later : List (Nat × Q)) : after step s (asked ++ later) =
    after step (after step s asked) later :=
  List.foldl_append

theorem chronicle_append (later : List (Nat × Q)) :
    chronicle step s (asked ++ later) = chronicle step s asked ++ chronicle step (after step s asked) later := by
  induction asked generalizing s with
  | nil => rfl
  | cons first rest ih =>
    rw [List.cons_append, chronicle, ih]
    rfl

theorem chronicle_snoc : chronicle step s (asked ++ [(now, q)]) =
    chronicle step s asked ++ [⟨now, q, (step (after step s asked) now q).1⟩] :=
  chronicle_append step s asked [(now, q)]

/-- Everything that is asked is entered, in order. -/
theorem chronicle_asked : (chronicle step s asked).map (fun e => (e.time, e.query)) = asked := by
  induction asked generalizing s with
  | nil => rfl
  | cons first rest ih => rw [chronicle, List.map_cons, ih]

end

/-! ### Contracts -/

/-- Each entry's relation to those before it. -/
theorem forall_split_snoc {α : Type} {P : List α → α → Prop} {log : List α} {last : α} :
    (∀ earlier e rest, log ++ [last] = earlier ++ e :: rest → P earlier e) ↔
      (∀ earlier e rest, log = earlier ++ e :: rest → P earlier e) ∧ P log last := by
  constructor
  · intro h
    refine ⟨fun earlier e rest heq => h earlier e (rest ++ [last]) ?_, h log last [] rfl⟩
    rw [heq, List.append_assoc, List.cons_append]
  · rintro ⟨h, hlast⟩ earlier e rest heq
    rcases List.eq_nil_or_concat rest with rfl | ⟨rest, x, rfl⟩
    · obtain ⟨hearlier, hcons⟩ := List.append_inj' heq rfl
      rw [← hearlier, ← (List.cons.inj hcons).1]
      exact hlast
    · rw [List.concat_eq_append, ← List.cons_append, ← List.append_assoc] at heq
      exact h earlier e rest (List.append_inj' heq rfl).1

/-- Each answer is the one that the entries before it make due. -/
def Due (due : List (Entry Q A) → Nat → Q → A) (log : List (Entry Q A)) : Prop :=
  ∀ earlier e rest, log = earlier ++ e :: rest → e.answer = due earlier e.time e.query

section
variable {step : S → Nat → Q → A × S} {s : S} {asked : List (Nat × Q)}

/-- **What every step keeps between the entries and the state holds in the end.** -/
theorem kept {I : List (Entry Q A) → S → Prop} (hnew : I [] s)
    (hstep : ∀ log s now q, I log s → I (log ++ [⟨now, q, (step s now q).1⟩]) (step s now q).2) :
    I (chronicle step s asked) (after step s asked) := by
  induction asked using List.reverseRecOn with
  | nil => exact hnew
  | append_singleton asked last ih =>
    rw [chronicle_snoc, after_snoc]
    exact hstep _ _ last.1 last.2 ih

/-- The same, of an object that is asked by a clock that does not go back. -/
theorem kept_sorted {I : List (Entry Q A) → S → Prop} (hnew : I [] s)
    (hstep : ∀ log s now q, I log s → (∀ e ∈ log, e.time ≤ now) →
      I (log ++ [⟨now, q, (step s now q).1⟩]) (step s now q).2)
    (hsorted : asked.Pairwise fun a b => a.1 ≤ b.1) : I (chronicle step s asked) (after step s asked) := by
  have hlog : (chronicle step s asked).Pairwise fun a b => a.time ≤ b.time := by
    rw [← chronicle_asked step s asked] at hsorted
    rwa [List.pairwise_map] at hsorted
  refine kept (I := fun log s => (log.Pairwise fun a b => a.time ≤ b.time) → I log s) (fun _ => hnew) ?_ hlog
  intro log s now q ih hlog
  obtain ⟨hbefore, -, hlast⟩ := List.pairwise_append.mp hlog
  exact hstep log s now q (ih hbefore) fun e he => hlast e he _ (List.mem_singleton_self _)

/-- An object whose answers are due wherever its state and the entries agree keeps the contract. -/
theorem due_of_step {I : List (Entry Q A) → S → Prop} {due : List (Entry Q A) → Nat → Q → A} (hnew : I [] s)
    (hanswer : ∀ log s now q, I log s → (∀ e ∈ log, e.time ≤ now) → (step s now q).1 = due log now q)
    (hstep : ∀ log s now q, I log s → (∀ e ∈ log, e.time ≤ now) →
      I (log ++ [⟨now, q, (step s now q).1⟩]) (step s now q).2)
    (hsorted : asked.Pairwise fun a b => a.1 ≤ b.1) : Due due (chronicle step s asked) := by
  refine (kept_sorted (I := fun log s => I log s ∧ Due due log) ⟨hnew, ?_⟩ ?_ hsorted).2
  · intro earlier e rest heq
    simp at heq
  · rintro log s now q ⟨hI, hdue⟩ htimes
    exact ⟨hstep log s now q hI htimes, forall_split_snoc.mpr ⟨hdue, hanswer log s now q hI htimes⟩⟩

end

/-! ### Two objects -/

section
variable {step : S → Nat → Q → A × S} {step' : S' → Nat → Q' → A' × S'}

/-- Where one object stands for another from some time on, its answers do. -/
theorem chronicle_simulated {R : Nat → S → S' → Prop} {f : Q' → Q} {g : A' → A}
    (hstep : ∀ s s' now q, R now s s' → (step s now (f q)).1 = g (step' s' now q).1 ∧
      R now (step s now (f q)).2 (step' s' now q).2)
    (hlater : ∀ s s' now later, R now s s' → now ≤ later → R later s s')
    {start : Nat} {s : S} {s' : S'} (h : R start s s') {asked : List (Nat × Q')}
    (hstart : ∀ q ∈ asked, start ≤ q.1) (hsorted : asked.Pairwise fun a b => a.1 ≤ b.1) :
    (chronicle step s (asked.map fun q => (q.1, f q.2))).map Entry.answer =
      (chronicle step' s' asked).map fun e => g e.answer := by
  induction asked generalizing start s s' with
  | nil => rfl
  | cons first rest ih =>
    obtain ⟨now, q⟩ := first
    obtain ⟨hfirst, hrest⟩ := List.pairwise_cons.mp hsorted
    obtain ⟨hanswer, hnext⟩ := hstep s s' now q (hlater s s' start now h (hstart _ List.mem_cons_self))
    simp only [chronicle, List.map_cons]
    rw [hanswer, ih hnext hfirst hrest]

/-- What is asked of others may be left out, where it changes nothing for what is kept. -/
theorem chronicle_filter {R : S → S → Prop} (keep : Q → Bool)
    (hkept : ∀ s s' now q, R s s' → keep q = true → (step s now q).1 = (step s' now q).1 ∧
      R (step s now q).2 (step s' now q).2)
    (hleft : ∀ s s' now q, R s s' → keep q = false → R (step s now q).2 s')
    {s s' : S} (h : R s s') (asked : List (Nat × Q)) :
    (chronicle step s asked).filter (fun e => keep e.query) =
      chronicle step s' (asked.filter fun q => keep q.2) := by
  induction asked generalizing s s' with
  | nil => rfl
  | cons first rest ih =>
    obtain ⟨now, q⟩ := first
    cases hq : keep q with
    | true =>
      obtain ⟨hanswer, hnext⟩ := hkept s s' now q h hq
      rw [List.filter_cons_of_pos (by exact hq), chronicle, chronicle, List.filter_cons_of_pos (by exact hq),
        ih hnext, hanswer]
    | false =>
      rw [List.filter_cons_of_neg (by simp [hq]), chronicle, List.filter_cons_of_neg (by simp [hq]),
        ih (hleft s s' now q h hq)]

end

end Chronicle
