import Mathlib.Data.List.Nodup
import Mathlib.Logic.Function.Basic

/-! Things behind mutexes.

Each of many things has a mutex of its own. What is true of a thing that nobody holds
(`Rest`) a task may spoil once it holds the thing, as long as it keeps account of how far
it has gone (`Holds`) and restores it before it gives the mutex back. A task holds one
thing at a time: the one it has entered, `inside`. -/
namespace Async

variable {K : Type}

/-- Every thing rests, or one task holds it and knows how it stands. -/
structure Sheltered (holder : Nat → Option Nat) (inside : Nat → Option (Nat × K)) (Rest : Nat → Prop)
    (Holds : Nat → K → Prop) : Prop where
  free : ∀ i, holder i = none → Rest i
  taken : ∀ i t, holder i = some t → ∃ k, inside t = some (i, k) ∧ Holds i k
  holder : ∀ t i k, inside t = some (i, k) → holder i = some t

namespace Sheltered
variable {holder : Nat → Option Nat} {inside : Nat → Option (Nat × K)} {Rest Rest' : Nat → Prop}
  {Holds Holds' : Nat → K → Prop} {t i : Nat} {k k' : K}

theorem idle (h : ∀ i, Rest i) : Sheltered (fun _ => none) (fun _ => none) Rest Holds where
  free i _ := h i
  taken _ _ h := nomatch h
  holder _ _ _ h := nomatch h

/-- What a task inside a thing knows of it is true. -/
theorem holds (h : Sheltered holder inside Rest Holds) (hin : inside t = some (i, k)) : Holds i k := by
  obtain ⟨k', hk', hholds⟩ := h.taken i t (h.holder t i k hin)
  obtain ⟨-, rfl⟩ := Prod.mk.inj (Option.some.inj (hin.symm.trans hk'))
  exact hholds

/-- Two tasks are never inside the same thing. -/
theorem alone (h : Sheltered holder inside Rest Holds) {u : Nat} (ht : inside t = some (i, k))
    (hu : inside u = some (i, k')) : u = t :=
  Option.some.inj ((h.holder u i k' hu).symm.trans (h.holder t i k ht))

/-- A task moves inside the thing it holds, and the others stay as they are. -/
theorem moves (h : Sheltered holder inside Rest Holds) (hin : inside t = some (i, k))
    (hrest : ∀ j, j ≠ i → Rest j → Rest' j) (hholds : ∀ j, j ≠ i → ∀ k, Holds j k → Holds' j k)
    (hk' : Holds' i k') :
    Sheltered holder (Function.update inside t (some (i, k'))) Rest' Holds' := by
  have hholder := h.holder t i k hin
  refine ⟨fun j hj => ?_, fun j u hu => ?_, fun u j k₁ hu => ?_⟩
  · have hji : j ≠ i := by
      rintro rfl
      cases hj.symm.trans hholder
    exact hrest j hji (h.free j hj)
  · by_cases hji : j = i
    · subst hji
      obtain rfl : u = t := Option.some.inj (hu.symm.trans hholder)
      exact ⟨k', Function.update_self .., hk'⟩
    · obtain ⟨k₁, hk₁, hj⟩ := h.taken j u hu
      have hut : u ≠ t := by
        rintro rfl
        exact hji (Prod.mk.inj (Option.some.inj (hk₁.symm.trans hin))).1
      exact ⟨k₁, (Function.update_of_ne hut ..).trans hk₁, hholds j hji k₁ hj⟩
  · by_cases hut : u = t
    · subst hut
      rw [Function.update_self] at hu
      obtain ⟨rfl, -⟩ := Prod.mk.inj (Option.some.inj hu)
      exact hholder
    · rw [Function.update_of_ne hut] at hu
      exact h.holder u j k₁ hu

/-- A task that holds nothing takes a mutex that nobody holds. -/
theorem enters (h : Sheltered holder inside Rest Holds) (hfree : holder i = none) (hout : inside t = none)
    (hk : Rest i → Holds i k) :
    Sheltered (Function.update holder i (some t)) (Function.update inside t (some (i, k))) Rest Holds := by
  refine ⟨fun j hj => ?_, fun j u hu => ?_, fun u j k₁ hu => ?_⟩
  · have hji : j ≠ i := by
      rintro rfl
      rw [Function.update_self] at hj
      cases hj
    rw [Function.update_of_ne hji] at hj
    exact h.free j hj
  · by_cases hji : j = i
    · subst hji
      rw [Function.update_self] at hu
      cases hu
      exact ⟨k, Function.update_self .., hk (h.free j hfree)⟩
    · rw [Function.update_of_ne hji] at hu
      obtain ⟨k₁, hk₁, hj⟩ := h.taken j u hu
      have hut : u ≠ t := by
        rintro rfl
        cases hout.symm.trans hk₁
      exact ⟨k₁, (Function.update_of_ne hut ..).trans hk₁, hj⟩
  · by_cases hut : u = t
    · subst hut
      rw [Function.update_self] at hu
      obtain ⟨rfl, -⟩ := Prod.mk.inj (Option.some.inj hu)
      exact Function.update_self ..
    · rw [Function.update_of_ne hut] at hu
      have hji : j ≠ i := by
        rintro rfl
        cases hfree.symm.trans (h.holder u j k₁ hu)
      rw [Function.update_of_ne hji]
      exact h.holder u j k₁ hu

/-- A task that has put its thing to rest gives the mutex back. -/
theorem leaves (h : Sheltered holder inside Rest Holds) (hin : inside t = some (i, k))
    (hrest : Holds i k → Rest i) :
    Sheltered (Function.update holder i none) (Function.update inside t none) Rest Holds := by
  refine ⟨fun j hj => ?_, fun j u hu => ?_, fun u j k₁ hu => ?_⟩
  · by_cases hji : j = i
    · exact hji ▸ hrest (h.holds hin)
    · rw [Function.update_of_ne hji] at hj
      exact h.free j hj
  · have hji : j ≠ i := by
      rintro rfl
      rw [Function.update_self] at hu
      cases hu
    rw [Function.update_of_ne hji] at hu
    obtain ⟨k₁, hk₁, hj⟩ := h.taken j u hu
    have hut : u ≠ t := by
      rintro rfl
      exact hji (Prod.mk.inj (Option.some.inj (hk₁.symm.trans hin))).1
    exact ⟨k₁, (Function.update_of_ne hut ..).trans hk₁, hj⟩
  · have hut : u ≠ t := by
      rintro rfl
      rw [Function.update_self] at hu
      cases hu
    rw [Function.update_of_ne hut] at hu
    have hji : j ≠ i := by
      rintro rfl
      exact hut (h.alone hin hu)
    rw [Function.update_of_ne hji]
    exact h.holder u j k₁ hu

end Sheltered

/-! ### Mutexes alone -/

/-- Whoever holds a mutex knows it, and nothing else is told of the things behind. -/
def Occupied (holder inside : Nat → Option Nat) : Prop :=
  Sheltered holder (Option.map (fun i => (i, ())) ∘ inside) (fun _ => True) fun _ _ => True

namespace Occupied
variable {holder inside : Nat → Option Nat} {t i : Nat}

theorem idle : Occupied (fun _ => none) fun _ => none := Sheltered.idle fun _ => trivial

theorem holder_iff (h : Occupied holder inside) : holder i = some t ↔ inside t = some i := by
  constructor
  · intro hi
    obtain ⟨_, hin, -⟩ := h.taken i t hi
    obtain ⟨j, hj, heq⟩ := Option.map_eq_some_iff.mp hin
    rw [hj, (Prod.mk.inj heq).1]
  · intro hin
    exact h.holder t i () (by rw [Function.comp_apply, hin]; rfl)

theorem kept (h : Occupied holder inside) : Occupied holder (Function.update inside t (inside t)) := by
  rwa [Function.update_eq_self]

theorem enters (h : Occupied holder inside) (hfree : holder i = none) (hout : inside t = none) :
    Occupied (Function.update holder i (some t)) (Function.update inside t (some i)) := by
  unfold Occupied
  rw [Function.comp_update]
  exact Sheltered.enters h hfree (by rw [Function.comp_apply, hout]; rfl) id

theorem leaves (h : Occupied holder inside) (hin : inside t = some i) :
    Occupied (Function.update holder i none) (Function.update inside t none) := by
  unfold Occupied
  rw [Function.comp_update]
  exact Sheltered.leaves h (k := ()) (by rw [Function.comp_apply, hin]; rfl) id

end Occupied

/-! ### Read guards -/

/-- Whoever reads has a guard, and nobody has two. -/
structure Readers (readers : List Nat) (reads : Nat → Bool) : Prop where
  mem : ∀ t, t ∈ readers ↔ reads t = true
  once : readers.Nodup

namespace Readers
variable {readers : List Nat} {reads : Nat → Bool} {t : Nat}

theorem nobody : Readers [] fun _ => false where
  mem _ := ⟨nofun, nofun⟩
  once := List.nodup_nil

theorem kept (h : Readers readers reads) : Readers readers (Function.update reads t (reads t)) := by
  rwa [Function.update_eq_self]

theorem enters (h : Readers readers reads) (hout : reads t = false) :
    Readers (t :: readers) (Function.update reads t true) where
  mem u := by
    by_cases hu : u = t
    · simp [hu]
    · rw [Function.update_of_ne hu, List.mem_cons, or_iff_right hu]
      exact h.mem u
  once := List.nodup_cons.mpr ⟨fun hin => by simp [(h.mem t).mp hin] at hout, h.once⟩

theorem leaves (h : Readers readers reads) : Readers (readers.erase t) (Function.update reads t false) where
  mem u := by
    rw [h.once.mem_erase_iff]
    by_cases hu : u = t
    · simp [hu]
    · rw [Function.update_of_ne hu, and_iff_right hu]
      exact h.mem u
  once := h.once.erase t

end Readers

end Async
