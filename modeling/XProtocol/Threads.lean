import Mathlib.Data.List.Induction

/-! Threads that share a world.

Unlike a program that is a tree, a thread here is at some place of its code, and may come back to
it: so its loops need no end. A move of a thread takes it from its place to the next, under
a choice of the environment where there is one, changes the world, and may start other
threads. A run is a list of moves. What every move keeps, a run keeps (`run_keeps`), and so
does what relates a state to the largest value that something in the world has ever had
(`run_keeps_largest`). -/
namespace Threads

/-- The world, and where each thread is. -/
structure State (W P : Type) where
  world : W
  places : List P

variable {W P C : Type}

/-- What a move from a place leads to: the next place, the world, and the threads that it starts. -/
abbrev Move (W P C : Type) := P → C → W → Option (P × W × List P)

namespace State

/-- Thread `t` moves, the environment choosing `c`. -/
def step (move : Move W P C) (s : State W P) (l : Nat × C) : Option (State W P) :=
  s.places[l.1]?.bind fun p => (move p l.2 s.world).map fun x => ⟨x.2.1, s.places.set l.1 x.1 ++ x.2.2⟩

def run (move : Move W P C) (s : State W P) : List (Nat × C) → Option (State W P)
  | [] => some s
  | l :: rest => (s.step move l).bind fun s' => s'.run move rest

/-- Every step of the run meets `ok`. -/
def Along (move : Move W P C) (ok : State W P → Nat × C → Prop) (s : State W P) : List (Nat × C) → Prop
  | [] => True
  | l :: rest => ∀ s', s.step move l = some s' → ok s l ∧ s'.Along move ok rest

/-- Every state of the run is in `I`, the first and the last among them. -/
def Throughout (move : Move W P C) (I : State W P → Prop) (s : State W P) : List (Nat × C) → Prop
  | [] => I s
  | l :: rest => I s ∧ ∀ s', s.step move l = some s' → s'.Throughout move I rest

/-- The largest value of `f` in any state of the run. -/
def largest (move : Move W P C) (f : W → Nat) (s : State W P) : List (Nat × C) → Nat
  | [] => f s.world
  | l :: rest => max (f s.world) ((s.step move l).elim 0 fun s' => s'.largest move f rest)

/-- How many threads are at a place of this kind. -/
def count (f : P → Bool) (s : State W P) : Nat := s.places.countP f

variable {move : Move W P C} {s s' : State W P}

theorem step_eq_some {t : Nat} {c : C} (h : s.step move (t, c) = some s') :
    ∃ p p' w new, s.places[t]? = some p ∧ move p c s.world = some (p', w, new) ∧
      s' = ⟨w, s.places.set t p' ++ new⟩ := by
  obtain ⟨p, hp, h⟩ := Option.bind_eq_some_iff.mp h
  obtain ⟨⟨p', w, new⟩, hmove, rfl⟩ := Option.map_eq_some_iff.mp h
  exact ⟨p, p', w, new, hp, hmove, rfl⟩

theorem step_move {t : Nat} {c : C} {p p' : P} {w : W} {new : List P} (hp : s.places[t]? = some p)
    (hmove : move p c s.world = some (p', w, new)) :
    s.step move (t, c) = some ⟨w, s.places.set t p' ++ new⟩ := by
  simp [step, hp, hmove]

theorem moved_self {t : Nat} {p : P} (hp : s.places[t]? = some p) (p' : P) (new : List P) :
    (s.places.set t p' ++ new)[t]? = some p' := by
  have hlt : t < s.places.length := (List.getElem?_eq_some_iff.mp hp).1
  rw [List.getElem?_append_left (by rwa [List.length_set]), List.getElem?_set_self hlt]

theorem moved_other {t u : Nat} {q : P} (hq : s.places[u]? = some q) (hut : u ≠ t) (p' : P) (new : List P) :
    (s.places.set t p' ++ new)[u]? = some q := by
  have hlt : u < s.places.length := (List.getElem?_eq_some_iff.mp hq).1
  rw [List.getElem?_append_left (by rwa [List.length_set]), List.getElem?_set_ne (Ne.symm hut), hq]

/-- A kind of place loses the thread that moves, and wins it where it is next. -/
theorem count_moved {t : Nat} {p : P} (hp : s.places[t]? = some p) (f : P → Bool) (p' : P) (w : W) (new : List P) :
    count f ⟨w, s.places.set t p' ++ new⟩ + (f p).toNat = s.count f + (f p').toNat + new.countP f := by
  obtain ⟨hlt, rfl⟩ := List.getElem?_eq_some_iff.mp hp
  have hle := List.boole_getElem_le_countP (p := f) hlt
  have htoNat (b : Bool) : b.toNat = if b then 1 else 0 := by cases b <;> rfl
  simp only [count, List.countP_append, List.countP_set hlt, htoNat]
  omega

/-- Where no thread is started, that is all. -/
theorem count_moved_alone {t : Nat} {p : P} (hp : s.places[t]? = some p) (f : P → Bool) (p' : P) (w : W) :
    count f ⟨w, s.places.set t p' ++ []⟩ + (f p).toNat = s.count f + (f p').toNat := by
  rw [count_moved hp, List.countP_nil, Nat.add_zero]

theorem run_append (a b : List (Nat × C)) : s.run move (a ++ b) = (s.run move a).bind fun m => m.run move b := by
  induction a generalizing s with
  | nil => rfl
  | cons l rest ih =>
    simp only [List.cons_append, run]
    cases s.step move l with
    | none => rfl
    | some m => exact ih

theorem run_cons {l : Nat × C} {rest : List (Nat × C)} (h : s.run move (l :: rest) = some s') :
    ∃ m, s.step move l = some m ∧ m.run move rest = some s' :=
  Option.bind_eq_some_iff.mp h

theorem run_snoc {ls : List (Nat × C)} {l : Nat × C} (h : s.run move (ls ++ [l]) = some s') :
    ∃ m, s.run move ls = some m ∧ m.step move l = some s' := by
  rw [run_append] at h
  obtain ⟨m, hm, h⟩ := Option.bind_eq_some_iff.mp h
  obtain ⟨_, hstep, heq⟩ := run_cons h
  cases heq
  exact ⟨m, hm, hstep⟩

/-- Two threads are two. -/
theorem two_le_count {f : P → Bool} {t u : Nat} {p q : P} (hp : s.places[t]? = some p) (hq : s.places[u]? = some q)
    (htu : t ≠ u) (hfp : f p = true) (hfq : f q = true) : 2 ≤ s.count f := by
  wlog hlt : t < u generalizing t u p q
  · exact this hq hp htu.symm hfq hfp (by omega)
  have hfirst : 0 < (s.places.take u).countP f :=
    List.countP_pos_iff.mpr ⟨p, List.mem_of_getElem? ((List.getElem?_take_of_lt hlt).trans hp), hfp⟩
  have hsecond : 0 < (s.places.drop u).countP f :=
    List.countP_pos_iff.mpr ⟨q, List.mem_of_getElem? ((List.getElem?_drop (j := 0)).trans hq), hfq⟩
  have hsum : s.count f = (s.places.take u).countP f + (s.places.drop u).countP f := by
    rw [← List.countP_append, List.take_append_drop, count]
  omega

/-- Some run leads there. -/
def Reaches (move : Move W P C) (s s' : State W P) : Prop := ∃ ls, s.run move ls = some s'

theorem Reaches.refl (s : State W P) : Reaches move s s := ⟨[], rfl⟩

theorem Reaches.trans {m : State W P} (h : Reaches move s m) (h' : Reaches move m s') : Reaches move s s' := by
  obtain ⟨a, ha⟩ := h
  obtain ⟨b, hb⟩ := h'
  exact ⟨a ++ b, by rw [run_append, ha, Option.bind_some, hb]⟩

theorem Reaches.step {m : State W P} {l : Nat × C} (h : Reaches move s m) (hstep : m.step move l = some s') :
    Reaches move s s' := h.trans ⟨[l], by rw [run, hstep, Option.bind_some, run]⟩

/-- The thread between the others moves. -/
theorem reaches_between {w w' : W} {p p' : P} {c : C} (hmove : move p c w = some (p', w', []))
    (before after : List P) : Reaches move ⟨w, before ++ p :: after⟩ ⟨w', before ++ p' :: after⟩ := by
  have hp : (before ++ p :: after)[before.length]? = some p := by simp
  refine (Reaches.refl _).step ((step_move hp hmove).trans ?_)
  simp

/-- **What every move keeps, a run keeps.** -/
theorem run_keeps {I : State W P → Prop} (keep : ∀ s l s', I s → s.step move l = some s' → I s')
    {ls : List (Nat × C)} (hI : I s) (h : s.run move ls = some s') : I s' := by
  induction ls generalizing s with
  | nil =>
    cases h
    exact hI
  | cons l rest ih =>
    obtain ⟨m, hm, hrest⟩ := run_cons h
    exact ih (keep s l m hI hm) hrest

theorem Throughout.first {I : State W P → Prop} {ls : List (Nat × C)} (h : s.Throughout move I ls) : I s := by
  cases ls with
  | nil => exact h
  | cons l rest => exact h.1

/-- **A run stays in `I` exactly if every step is `ok`**, if a step out of `I` leads to it again exactly if it is. -/
theorem throughout_iff_along {I J : State W P → Prop} {ok : State W P → Nat × C → Prop}
    (hstep : ∀ s l s', J s → I s → s.step move l = some s' → J s' ∧ (I s' ↔ ok s l)) (hJ : J s) (hI : I s)
    (ls : List (Nat × C)) : s.Throughout move I ls ↔ s.Along move ok ls := by
  induction ls generalizing s with
  | nil => exact iff_of_true hI trivial
  | cons l rest ih =>
    constructor
    · rintro ⟨-, h⟩ s' hs'
      obtain ⟨hJ', hiff⟩ := hstep s l s' hJ hI hs'
      have hI' : I s' := (h s' hs').first
      exact ⟨hiff.mp hI', (ih hJ' hI').mp (h s' hs')⟩
    · intro h
      refine ⟨hI, fun s' hs' => ?_⟩
      obtain ⟨hJ', hiff⟩ := hstep s l s' hJ hI hs'
      obtain ⟨hok, hrest⟩ := h s' hs'
      exact (ih hJ' (hiff.mpr hok)).mpr hrest

theorem largest_snoc {f : W → Nat} {ls : List (Nat × C)} {l : Nat × C} (h : s.run move (ls ++ [l]) = some s') :
    s.largest move f (ls ++ [l]) = max (s.largest move f ls) (f s'.world) := by
  induction ls generalizing s with
  | nil =>
    obtain ⟨m, hm, hrest⟩ := run_cons h
    cases hrest
    show max (f s.world) ((s.step move l).elim 0 _) = _
    rw [hm]
    rfl
  | cons first rest ih =>
    obtain ⟨m, hm, hrest⟩ := run_cons h
    rw [List.cons_append, largest, largest, hm, Option.elim_some, Option.elim_some, ih hrest, Nat.max_assoc]

/-- **What every move keeps between a state and the largest value so far holds in the end.** -/
theorem run_keeps_largest {f : W → Nat} {I : Nat → State W P → Prop}
    (keep : ∀ top s l s', I top s → s.step move l = some s' → I (max top (f s'.world)) s') {ls : List (Nat × C)}
    (hI : I (f s.world) s) (h : s.run move ls = some s') : I (s.largest move f ls) s' := by
  induction ls using List.reverseRecOn generalizing s' with
  | nil =>
    cases h
    exact hI
  | append_singleton ls l ih =>
    obtain ⟨m, hm, hstep⟩ := run_snoc h
    rw [largest_snoc h]
    exact keep _ m l s' (ih hm) hstep

end State

end Threads
