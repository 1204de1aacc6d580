import Mathlib.Order.Nat
import XProtocol.Threads

/-! A maximum without a lock.

Threads offer values to a cell that keeps the largest one. Each reads the cell; as long as
its own value is larger, it tries to exchange the two, and starts over if somebody else has been
faster. So there is always either the largest value in the cell, or a thread
on its way with it (`Covered`), and a thread that has to start over owes it to another one, which has
raised the cell (`retry_caused`). -/
namespace Threads

/-- Where a thread is in the loop. -/
inductive Raising where
  /-- Before it reads the cell. -/
  | load (value : Nat)
  /-- Before it exchanges what it has seen for its value. -/
  | exchange (value seen : Nat)
deriving DecidableEq

namespace Raising

def value : Raising → Nat
  | load value => value
  | exchange value _ => value

/-- Where the thread is next, if it is not done, and the cell. -/
def step : Raising → Nat → Option Raising × Nat
  | load value, cell => if value ≤ cell then (none, cell) else (some (exchange value cell), cell)
  | exchange value seen, cell => if cell = seen then (none, value) else (some (load value), cell)

/-- A thread exchanges only what is smaller than its value. -/
def Sound : Raising → Prop
  | load _ => True
  | exchange value seen => seen < value

/-- A step is over with a value that is not larger, goes on with the same value, or raises the cell. -/
theorem step_cases (l : Raising) (cell : Nat) :
    (l.value ≤ cell ∧ l.step cell = (none, cell)) ∨
      (∃ next, l.step cell = (some next, cell) ∧ next.value = l.value ∧ next.Sound) ∨
      (l = .exchange l.value cell ∧ l.step cell = (none, l.value)) := by
  cases l with
  | load value =>
    by_cases hle : value ≤ cell
    · exact .inl ⟨hle, if_pos hle⟩
    · exact .inr (.inl ⟨_, if_neg hle, rfl, Nat.lt_of_not_le hle⟩)
  | exchange value seen =>
    by_cases hseen : cell = seen
    · exact .inr (.inr ⟨by rw [hseen]; rfl, if_pos hseen⟩)
    · exact .inr (.inl ⟨_, if_neg hseen, rfl, trivial⟩)

/-- Who is about to exchange has just seen what is in the cell. -/
theorem seen_of_step {l : Raising} {cell cell' value seen : Nat}
    (h : (some (.exchange value seen), cell') = l.step cell) : cell' = seen := by
  cases l with
  | load v =>
    by_cases hle : v ≤ cell
    · exact nomatch h.trans (if_pos hle)
    · cases h.trans (if_neg hle)
      rfl
  | exchange v known =>
    by_cases hseen : cell = known
    · exact nomatch h.trans (if_pos hseen)
    · exact nomatch h.trans (if_neg hseen)

end Raising

/-- What the code of threads owes that offer values to `cell`; `raising` tells of a place whether it is in the loop. -/
structure Offering {W P C : Type} (move : Move W P C) (cell : W → Nat) (raising : P → Option Raising) : Prop where
  goes : ∀ p c w p' w' new l, move p c w = some (p', w', new) → raising p = some l →
    (raising p', cell w') = l.step (cell w)
  begins : ∀ p c w p' w' new, move p c w = some (p', w', new) → raising p = none →
    cell w' = cell w ∧ ∀ l, raising p' = some l → l = .load l.value
  starts : ∀ p c w p' w' new, move p c w = some (p', w', new) → ∀ q ∈ new, raising q = none

/-- Each thread in the loop is sound, and `top` is the largest value that was offered: no larger one is in
the cell or on its way, and it is in the cell, or on its way. -/
structure Covered {W P : Type} (cell : W → Nat) (raising : P → Option Raising) (top : Nat)
    (s : State W P) : Prop where
  sound : ∀ p ∈ s.places, ∀ l, raising p = some l → l.Sound
  cell_le : cell s.world ≤ top
  value_le : ∀ p ∈ s.places, ∀ l, raising p = some l → l.value ≤ top
  covered : top ≤ cell s.world ∨ ∃ p ∈ s.places, ∃ l, raising p = some l ∧ l.value = top

variable {W P C : Type} {move : Move W P C} {cell : W → Nat} {raising : P → Option Raising} {top : Nat}
  {s s' : State W P}

/-- The value that a thread begins to offer between the two places. -/
def offered (raising : P → Option Raising) (p p' : P) : Nat :=
  match raising p, raising p' with
  | none, some l => l.value
  | _, _ => 0

/-- One thread has moved, and has left the others where they were. -/
theorem Covered.moved (hs : Covered cell raising top s) {t top' : Nat} {p p' : P} {w : W} {new : List P}
    (hp : s.places[t]? = some p) (hnew : ∀ q ∈ new, raising q = none) (htop : top ≤ top')
    (hnext : ∀ k, raising p' = some k → k.Sound ∧ k.value ≤ top') (hcell : cell s.world ≤ cell w)
    (hle : cell w ≤ top')
    (hleft : ∀ l, raising p = some l → l.value = top' → top' ≤ cell w ∨ ∃ k, raising p' = some k ∧ k.value = top')
    (hraised : top' = top ∨ ∃ k, raising p' = some k ∧ k.value = top') :
    Covered cell raising top' ⟨w, s.places.set t p' ++ new⟩ := by
  have hlt : t < s.places.length := (List.getElem?_eq_some_iff.mp hp).1
  have hthere : p' ∈ s.places.set t p' ++ new := List.mem_append_left _ (List.mem_set hlt p')
  have hafter {q : P} (hq : q ∈ s.places.set t p' ++ new) {k : Raising} (hk : raising q = some k) :
      q ∈ s.places ∨ q = p' := by
    rcases List.mem_append.mp hq with hq | hq
    · exact List.mem_or_eq_of_mem_set hq
    · exact nomatch (hnew q hq).symm.trans hk
  have hstays {q : P} (hq : q ∈ s.places) : q = p ∨ q ∈ s.places.set t p' ++ new := by
    obtain ⟨u, hu⟩ := List.mem_iff_getElem?.mp hq
    by_cases hut : u = t
    · subst hut
      exact .inl (Option.some.inj (hu.symm.trans hp))
    · refine .inr (List.mem_append_left _ (List.mem_iff_getElem?.mpr ⟨u, ?_⟩))
      rwa [List.getElem?_set_ne (Ne.symm hut)]
  refine ⟨fun q hq k hk => ?_, hle, fun q hq k hk => ?_, ?_⟩
  · rcases hafter hq hk with hq | rfl
    · exact hs.sound q hq k hk
    · exact (hnext k hk).1
  · rcases hafter hq hk with hq | rfl
    · exact Nat.le_trans (hs.value_le q hq k hk) htop
    · exact (hnext k hk).2
  · rcases hraised with rfl | ⟨k, hk, hvalue⟩
    · rcases hs.covered with hcovered | ⟨q, hq, l, hl, hvalue⟩
      · exact .inl (Nat.le_trans hcovered hcell)
      · rcases hstays hq with rfl | hq
        · exact (hleft l hl hvalue).imp_right fun ⟨k, hk, hvalue⟩ => ⟨p', hthere, k, hk, hvalue⟩
        · exact .inr ⟨q, hq, l, hl, hvalue⟩
    · exact .inr ⟨p', hthere, k, hk, hvalue⟩

/-- **The largest value is covered after every move**, the one that begins to be offered among them. -/
theorem Covered.step (h : Offering move cell raising) (hs : Covered cell raising top s) {t : Nat} {c : C} {p p' : P}
    {w : W} {new : List P} (hp : s.places[t]? = some p) (hmove : move p c s.world = some (p', w, new)) :
    cell s.world ≤ cell w ∧
      Covered cell raising (max top (offered raising p p')) ⟨w, s.places.set t p' ++ new⟩ := by
  have hmem : p ∈ s.places := List.mem_of_getElem? hp
  have hnew := h.starts _ _ _ _ _ _ hmove
  cases hl : raising p with
  | none =>
    obtain ⟨hcell, hbegins⟩ := h.begins _ _ _ _ _ _ hmove hl
    have hle : cell w ≤ max top (offered raising p p') := hcell ▸ Nat.le_trans hs.cell_le (Nat.le_max_left ..)
    refine ⟨Nat.le_of_eq hcell.symm, hs.moved hp hnew (Nat.le_max_left ..) (fun k hk => ⟨?_, ?_⟩)
      (Nat.le_of_eq hcell.symm) hle (fun l hl' => nomatch hl.symm.trans hl') ?_⟩
    · rw [hbegins k hk]
      trivial
    · rw [offered, hl, hk]
      exact Nat.le_max_right ..
    · cases hk : raising p' with
      | none => exact .inl (by simp [offered, hl, hk])
      | some k =>
        rcases Nat.le_total k.value top with hsmall | hlarge
        · exact .inl (by simp [offered, hl, hk, hsmall])
        · exact .inr ⟨k, rfl, by simp [offered, hl, hk, hlarge]⟩
  | some l =>
    have htop : max top (offered raising p p') = top := by simp [offered, hl]
    rw [htop]
    have hvalue : l.value ≤ top := hs.value_le p hmem l hl
    have hgoes := h.goes _ _ _ _ _ _ l hmove hl
    rcases l.step_cases (cell s.world) with ⟨hsmall, hstep⟩ | ⟨next, hstep, hsame, hsound⟩ | ⟨hexchange, hstep⟩
    · obtain ⟨hdone, hcell⟩ := Prod.mk.inj (hgoes.trans hstep)
      refine ⟨Nat.le_of_eq hcell.symm, hs.moved hp hnew (Nat.le_refl _) (fun k hk => nomatch hdone.symm.trans hk)
        (Nat.le_of_eq hcell.symm) (hcell ▸ hs.cell_le) (fun l' hl' htop => .inl ?_) (.inl rfl)⟩
      cases hl.symm.trans hl'
      rw [hcell, ← htop]
      exact hsmall
    · obtain ⟨hnext, hcell⟩ := Prod.mk.inj (hgoes.trans hstep)
      refine ⟨Nat.le_of_eq hcell.symm, hs.moved hp hnew (Nat.le_refl _) (fun k hk => ?_)
        (Nat.le_of_eq hcell.symm) (hcell ▸ hs.cell_le) (fun l' hl' htop => .inr ⟨next, hnext, ?_⟩) (.inl rfl)⟩
      · cases hnext.symm.trans hk
        exact ⟨hsound, hsame ▸ hvalue⟩
      · cases hl.symm.trans hl'
        exact hsame.trans htop
    · obtain ⟨hdone, hcell⟩ := Prod.mk.inj (hgoes.trans hstep)
      have hlt : cell s.world < l.value := by
        have hsound := hs.sound p hmem l hl
        rw [hexchange] at hsound
        exact hsound
      have hle : cell s.world ≤ cell w := hcell ▸ Nat.le_of_lt hlt
      refine ⟨hle, hs.moved hp hnew (Nat.le_refl _) (fun k hk => nomatch hdone.symm.trans hk) hle (hcell ▸ hvalue)
        (fun l' hl' htop => .inl ?_) (.inl rfl)⟩
      cases hl.symm.trans hl'
      exact Nat.le_of_eq (hcell.trans htop).symm

theorem covered_start (hstart : ∀ p ∈ s.places, raising p = none) :
    Covered cell raising (cell s.world) s where
  sound p hp _ hl := nomatch (hstart p hp).symm.trans hl
  cell_le := Nat.le_refl _
  value_le p hp _ hl := nomatch (hstart p hp).symm.trans hl
  covered := .inl (Nat.le_refl _)

/-- The largest of what the threads stand for. -/
def State.most (f : P → Nat) (s : State W P) : Nat := (s.places.map f).foldr max 0

theorem foldr_max_le_iff (values : List Nat) (k : Nat) : values.foldr max 0 ≤ k ↔ ∀ v ∈ values, v ≤ k := by
  induction values with
  | nil => simp
  | cons v rest ih => rw [List.foldr_cons, Nat.max_le, ih, List.forall_mem_cons]

theorem State.most_moved {f : P → Nat} {t : Nat} {p p' : P} (hp : s.places[t]? = some p) (w : W) {new : List P}
    (hle : f p ≤ f p') (hnew : ∀ q ∈ new, f q = 0) :
    State.most f ⟨w, s.places.set t p' ++ new⟩ = max (s.most f) (f p') := by
  obtain ⟨hlt, rfl⟩ := List.getElem?_eq_some_iff.mp hp
  refine eq_of_forall_ge_iff fun k => ?_
  simp only [State.most, Nat.max_le, foldr_max_le_iff, List.forall_mem_map]
  constructor
  · intro h
    have hp' : f p' ≤ k := h p' (List.mem_append_left _ (List.mem_set hlt p'))
    refine ⟨fun q hq => ?_, hp'⟩
    obtain ⟨u, hu, rfl⟩ := List.mem_iff_getElem.mp hq
    by_cases hut : u = t
    · subst hut
      exact Nat.le_trans hle hp'
    · refine h _ (List.mem_append_left _ (List.mem_iff_getElem.mpr ⟨u, by rwa [List.length_set], ?_⟩))
      exact List.getElem_set_ne (Ne.symm hut) _
  · rintro ⟨h, hp'⟩ q hq
    rcases List.mem_append.mp hq with hq | hq
    · rcases List.mem_or_eq_of_mem_set hq with hq | rfl
      · exact h q hq
      · exact hp'
    · exact hnew q hq ▸ Nat.zero_le k

/-- **The largest value that any thread has offered is covered**, if each stands for the value that it
has begun to offer. -/
theorem run_covered_most (h : Offering move cell raising) {sent : P → Nat}
    (hsent : ∀ p c w p' w' new, move p c w = some (p', w', new) →
      sent p' = max (sent p) (offered raising p p') ∧ ∀ q ∈ new, sent q = 0)
    (hstart : ∀ p ∈ s.places, raising p = none ∧ sent p ≤ cell s.world) {ls : List (Nat × C)}
    (hrun : s.run move ls = some s') : Covered cell raising (max (cell s.world) (s'.most sent)) s' := by
  have hinitial : s.most sent ≤ cell s.world :=
    (foldr_max_le_iff ..).mpr (List.forall_mem_map.mpr fun p hp => (hstart p hp).2)
  refine State.run_keeps (I := fun m => Covered cell raising (max (cell s.world) (m.most sent)) m) ?_ ?_ hrun
  · rintro m ⟨t, c⟩ m' hm hstep
    obtain ⟨p, p', w, new, hp, hmove, rfl⟩ := State.step_eq_some hstep
    obtain ⟨hsent, hnew⟩ := hsent _ _ _ _ _ _ hmove
    have hle : sent p ≤ m.most sent :=
      (foldr_max_le_iff ..).mp (Nat.le_refl _) _ (List.mem_map_of_mem (List.mem_of_getElem? hp))
    have hmost : max (max (cell s.world) (m.most sent)) (offered raising p p') =
        max (cell s.world) (max (m.most sent) (sent p')) := by omega
    rw [State.most_moved hp w (hsent ▸ Nat.le_max_left ..) hnew, ← hmost]
    exact (hm.step h hp hmove).2
  · rw [Nat.max_eq_left hinitial]
    exact covered_start fun p hp => (hstart p hp).1

theorem Covered.quiet (h : Covered cell raising top s) (hquiet : ∀ p ∈ s.places, raising p = none) :
    cell s.world = top := by
  refine Nat.le_antisymm h.cell_le (h.covered.resolve_right ?_)
  rintro ⟨p, hp, l, hl, -⟩
  exact nomatch (hquiet p hp).symm.trans hl

/-- Thread `t` is there in the loop. -/
def Stands (raising : P → Option Raising) (s : State W P) (t : Nat) (l : Raising) : Prop :=
  s.places[t]?.bind raising = some l

/-- The largest value so far stays covered by some value. -/
theorem run_covered (h : Offering move cell raising) (hstart : ∀ p ∈ s.places, raising p = none)
    {ls : List (Nat × C)} (hrun : s.run move ls = some s') : ∃ top, Covered cell raising top s' := by
  refine State.run_keeps (I := fun s => ∃ top, Covered cell raising top s) ?_ ⟨_, covered_start hstart⟩ hrun
  rintro s ⟨t, c⟩ s' ⟨top, hs⟩ hstep
  obtain ⟨p, p', w, new, hp, hmove, rfl⟩ := State.step_eq_some hstep
  exact ⟨_, (hs.step h hp hmove).2⟩

/-- A thread that another one's move has not put there was there before. -/
theorem Stands.before (h : Offering move cell raising) {t u : Nat} {c : C} {p p' : P} {w : W} {new : List P}
    {l : Raising} (hut : u ≠ t) (hmove : move p c s.world = some (p', w, new))
    (ht : Stands raising ⟨w, s.places.set u p' ++ new⟩ t l) : Stands raising s t l := by
  obtain ⟨q, hq, hl⟩ := Option.bind_eq_some_iff.mp ht
  by_cases hlt : t < s.places.length
  · rw [List.getElem?_append_left (by rwa [List.length_set]), List.getElem?_set_ne hut] at hq
    exact Option.bind_eq_some_iff.mpr ⟨q, hq, hl⟩
  · rw [List.getElem?_append_right (by rw [List.length_set]; exact Nat.le_of_not_lt hlt)] at hq
    exact nomatch (h.starts _ _ _ _ _ _ hmove q (List.mem_of_getElem? hq)).symm.trans hl

/-- In the run another thread than `t` has raised the cell while `t` stood there. -/
def Overtaken (move : Move W P C) (cell : W → Nat) (raising : P → Option Raising) (s : State W P)
    (ls : List (Nat × C)) (t : Nat) (l : Raising) : Prop :=
  ∃ before u c rest m m', ls = before ++ (u, c) :: rest ∧ s.run move before = some m ∧
    m.step move (u, c) = some m' ∧ u ≠ t ∧ Stands raising m t l ∧ cell m.world < cell m'.world

/-- **A thread that has to start over owes it to another one**, which has raised the cell while the
thread was about to exchange. -/
theorem retry_caused (h : Offering move cell raising) (hstart : ∀ p ∈ s.places, raising p = none)
    {ls : List (Nat × C)} (hrun : s.run move ls = some s') {t value seen : Nat}
    (ht : Stands raising s' t (.exchange value seen)) (hseen : cell s'.world ≠ seen) :
    Overtaken move cell raising s ls t (.exchange value seen) := by
  induction ls using List.reverseRecOn generalizing s' with
  | nil =>
    cases hrun
    obtain ⟨p, hp, hl⟩ := Option.bind_eq_some_iff.mp ht
    exact nomatch (hstart p (List.mem_of_getElem? hp)).symm.trans hl
  | append_singleton ls l ih =>
    obtain ⟨u, c⟩ := l
    obtain ⟨m, hm, hstep⟩ := State.run_snoc hrun
    obtain ⟨p, p', w, new, hp, hmove, rfl⟩ := State.step_eq_some hstep
    obtain ⟨top, hcovered⟩ := run_covered h hstart hm
    have hle := (hcovered.step h hp hmove).1
    have hlonger {before : List (Nat × C)} {u' : Nat} {c' : C} {rest : List (Nat × C)}
        (hsplit : ls = before ++ (u', c') :: rest) : ls ++ [(u, c)] = before ++ (u', c') :: (rest ++ [(u, c)]) := by
      rw [hsplit, List.append_assoc, List.cons_append]
    by_cases hut : u = t
    · -- its own move to the exchange has seen what is in the cell
      subst hut
      have hl' : raising p' = some (.exchange value seen) := by
        rwa [Stands, State.moved_self hp, Option.bind_some] at ht
      cases hl : raising p with
      | none => exact nomatch (h.begins _ _ _ _ _ _ hmove hl).2 _ hl'
      | some l =>
        have hgoes := h.goes _ _ _ _ _ _ l hmove hl
        rw [hl'] at hgoes
        exact absurd (Raising.seen_of_step hgoes) hseen
    · have ht' : Stands raising m t (.exchange value seen) := ht.before h hut hmove
      by_cases hsame : cell m.world = seen
      · have hraised : cell m.world < cell w := Nat.lt_of_le_of_ne hle fun heq => hseen (heq ▸ hsame)
        exact ⟨ls, u, c, [], m, _, rfl, hm, hstep, hut, ht', hraised⟩
      · obtain ⟨before, u', c', rest, m₁, m₂, hsplit, hrest⟩ := ih hm ht' hsame
        exact ⟨before, u', c', rest ++ [(u, c)], m₁, m₂, hlonger hsplit, hrest⟩

end Threads
