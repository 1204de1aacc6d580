import XProtocol.Async.Mutex

/-! Read-write locks.

Who asks to write keeps out every reader that comes later, and waits until those are gone that
came before. So a task stands in others' way before it has anything, and it waits itself for
those who read. `RwLock.Hold` says what a task has of a lock, and `Guards.waits` who stands in
its way. -/
namespace Async

structure RwLock where
  /-- Who has the write guard, or is the next to have it. -/
  writer : Option Nat
  /-- Who has a read guard. -/
  readers : List Nat

namespace RwLock

def free : RwLock := ⟨none, []⟩

inductive Use where
  /-- To ask for the write guard: from here on there are no new readers. -/
  | claim
  /-- To get it. -/
  | write
  | endWrite
  | read
  | endRead

/-- What task `t` makes of the lock, unless it has to wait. -/
def use (t : Nat) : Use → RwLock → Option RwLock
  | .claim, l => if l.writer = none then some { l with writer := some t } else none
  | .write, l => if l.readers = [] then some l else none
  | .endWrite, l => some { l with writer := none }
  | .read, l => if l.writer = none then some { l with readers := t :: l.readers } else none
  | .endRead, l => some { l with readers := l.readers.erase t }

/-- What a task has of a lock. -/
inductive Hold where
  | nothing
  | claimed
  | writing
  | reading
  deriving DecidableEq

namespace Hold

/-- What a task must have to use the lock so. -/
def before : Use → Hold
  | .claim | .read => nothing
  | .write => claimed
  | .endWrite => writing
  | .endRead => reading

def after : Use → Hold
  | .claim => claimed
  | .write => writing
  | .read => reading
  | .endWrite | .endRead => nothing

end Hold

/-- Who has what of the lock. -/
structure Guards (l : RwLock) (has : Nat → Hold) : Prop where
  writer : ∀ t, l.writer = some t ↔ has t = .claimed ∨ has t = .writing
  readers : Readers l.readers fun t => has t = .reading
  apart : ∀ t, has t = .writing → l.readers = []

namespace Guards
variable {l l' : RwLock} {has : Nat → Hold} {t v : Nat} {u : Use}

theorem free : Guards .free fun _ => .nothing where
  writer _ := ⟨nofun, nofun⟩
  readers := Readers.nobody
  apart _ := nofun

theorem kept (h : Guards l has) : Guards l (Function.update has t (has t)) := by
  rwa [Function.update_eq_self]

/-- Who reads keeps every writer out. -/
theorem not_reading (h : Guards l has) (hwriting : has t = .writing) : has v ≠ .reading := by
  intro hreading
  have hin : v ∈ l.readers := (h.readers.mem v).mpr (decide_eq_true hreading)
  rw [h.apart t hwriting] at hin
  cases hin

/-- There is one writer. -/
theorem writing_unique (h : Guards l has) (ht : has t = .writing) (hv : has v = .writing) : v = t :=
  Option.some.inj (((h.writer v).mpr (.inr hv)).symm.trans ((h.writer t).mpr (.inr ht)))

private theorem decide_update (has : Nat → Hold) (t : Nat) (g : Hold) :
    (fun v => decide (Function.update has t g v = .reading)) =
      Function.update (fun v => decide (has v = .reading)) t (decide (g = .reading)) :=
  Function.comp_update (fun g : Hold => decide (g = .reading)) has t g

/-- Who has of the lock what its use needs has afterwards what it gives. -/
theorem uses (h : Guards l has) (hdue : has t = .before u) (huse : use t u l = some l') :
    Guards l' (Function.update has t (.after u)) := by
  have hreaders : ∀ readers, Readers readers (Function.update (fun v => decide (has v = .reading)) t
      (decide (Hold.after u = .reading))) → Readers readers fun v => Function.update has t (.after u) v = .reading := by
    intro readers hreaders
    rwa [decide_update]
  have hstays (hnot : has t ≠ .reading) : Readers l.readers
      (Function.update (fun v => decide (has v = .reading)) t false) := by
    have hkept := h.readers.kept (t := t)
    rwa [decide_eq_false hnot] at hkept
  cases u with
  | claim =>
    obtain ⟨hnone, heq⟩ := Option.ite_none_right_eq_some.mp huse
    cases heq
    have hnobody (v : Nat) : ¬ (has v = .claimed ∨ has v = .writing) := by
      rw [← h.writer v, hnone]
      nofun
    refine ⟨fun v => ?_, hreaders _ (hstays (by rw [hdue]; nofun)), fun v hv => ?_⟩
    · by_cases hv : v = t
      · simp [hv, Hold.after]
      · rw [Function.update_of_ne hv, iff_false_right (hnobody v)]
        simpa using Ne.symm hv
    · by_cases heq : v = t
      · simp [heq, Hold.after] at hv
      · rw [Function.update_of_ne heq] at hv
        exact h.apart v hv
  | write =>
    obtain ⟨hgone, heq⟩ := Option.ite_none_right_eq_some.mp huse
    cases heq
    refine ⟨fun v => ?_, hreaders _ (hstays (by rw [hdue]; nofun)), fun _ _ => hgone⟩
    by_cases hv : v = t
    · subst hv
      simp [Hold.after, (h.writer v).mpr (.inl hdue)]
    · rw [Function.update_of_ne hv]
      exact h.writer v
  | endWrite =>
    cases huse
    have hown : l.writer = some t := (h.writer t).mpr (.inr hdue)
    refine ⟨fun v => iff_of_false nofun fun hv => ?_, hreaders _ (hstays (by rw [hdue]; nofun)), fun v hv => ?_⟩
    · by_cases heq : v = t
      · simp [heq, Hold.after] at hv
      · rw [Function.update_of_ne heq] at hv
        exact heq (Option.some.inj (((h.writer v).mpr hv).symm.trans hown))
    · exact h.apart t hdue
  | read =>
    obtain ⟨hnone, heq⟩ := Option.ite_none_right_eq_some.mp huse
    cases heq
    have hnobody (v : Nat) : ¬ (has v = .claimed ∨ has v = .writing) := by
      rw [← h.writer v, hnone]
      nofun
    refine ⟨fun v => ?_, hreaders _ (h.readers.enters (by rw [hdue]; rfl)), fun v hv => ?_⟩
    · by_cases hv : v = t
      · simp [hv, hnone, Hold.after]
      · rw [Function.update_of_ne hv]
        exact h.writer v
    · by_cases heq : v = t
      · simp [heq, Hold.after] at hv
      · rw [Function.update_of_ne heq] at hv
        exact absurd (.inr hv) (hnobody v)
  | endRead =>
    cases huse
    refine ⟨fun v => ?_, hreaders _ h.readers.leaves, fun v hv => ?_⟩
    · by_cases hv : v = t
      · subst hv
        have hnot : l.writer ≠ some v := fun hw => by
          rcases (h.writer v).mp hw with hv | hv <;> cases hdue.symm.trans hv
        simp [Hold.after, hnot]
      · rw [Function.update_of_ne hv]
        exact h.writer v
    · by_cases heq : v = t
      · simp [heq, Hold.after] at hv
      · rw [Function.update_of_ne heq] at hv
        exact absurd hdue (h.not_reading hv)

end Guards

/-! ### Who waits for whom -/

/-- What a use waits for: that nobody writes or is going to, or that nobody reads. -/
def rank : Use → Nat
  | .claim | .read => 0
  | .write => 1
  | .endWrite | .endRead => 2

theorem rank_le (u : Use) : rank u ≤ 2 := by cases u <;> decide

/-- What a task has, as others wait for it. -/
def Hold.Bars (g : Hold) (r : Nat) : Prop := (r = 0 ∧ (g = .claimed ∨ g = .writing)) ∨ (r = 1 ∧ g = .reading)

namespace Hold

theorem not_bars (r : Nat) : ¬ Bars nothing r := by
  rintro (⟨-, h | h⟩ | ⟨-, h⟩) <;> cases h

theorem Bars.le {g : Hold} {r : Nat} (h : g.Bars r) : r ≤ 1 := by
  rcases h with ⟨rfl, -⟩ | ⟨rfl, -⟩ <;> decide

/-- Who has something of a lock waits only for what comes later. -/
theorem Bars.lt_rank {u : Use} {r : Nat} (h : (before u).Bars r) : r < rank u := by
  rcases h with ⟨rfl, h⟩ | ⟨rfl, h⟩ <;> cases u <;> simp_all [before, rank]

end Hold

/-- Who waits waits for a task that has what it waits for. -/
theorem Guards.waits {l : RwLock} {has : Nat → Hold} {t : Nat} {u : Use} (h : Guards l has)
    (hblocked : use t u l = none) : ∃ v, (has v).Bars (rank u) := by
  cases u with
  | claim | read =>
    cases hwriter : l.writer with
    | none => simp [use, hwriter] at hblocked
    | some v => exact ⟨v, .inl ⟨rfl, (h.writer v).mp hwriter⟩⟩
  | write =>
    cases hreaders : l.readers with
    | nil => simp [use, hreaders] at hblocked
    | cons v rest =>
      have hin : v ∈ l.readers := by simp [hreaders]
      exact ⟨v, .inr ⟨rfl, of_decide_eq_true ((h.readers.mem v).mp hin)⟩⟩
  | endWrite | endRead => cases hblocked

end RwLock

end Async
