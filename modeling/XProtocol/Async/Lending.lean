import XProtocol.Async.Ledger

/-! Things that are lent.

A store has things lying idle, and lends them to tasks, one at a time: an idle one, or a
new one if there is none. Things are numbered in the order in which they are made. A store
is sound if no thing is in two places (`Sound`), and each way in which a thing changes
hands keeps it so.

A store may be behind a semaphore: a task takes a permit before it takes a thing, or finds
none and so may make one, and gives the permit back last (`Store.act`). Nothing bounds the
list of idle things then, and yet there are never more things than permits to begin with
(`Rationed.act`): a task that finds none idle comes under its permit, as everyone who has
one. -/
namespace Async

structure Lending where
  idle : List Nat
  lent : Nat → Option Nat
  /-- How many things have been made. -/
  born : Nat

namespace Lending

/-- No thing is idle twice, lent twice, or idle and lent; and every one has been made. -/
structure Sound (L : Lending) : Prop where
  idle_nodup : L.idle.Nodup
  apart : ∀ t c, L.lent t = some c → c ∉ L.idle
  alone : ∀ t u c, L.lent t = some c → L.lent u = some c → t = u
  idle_born : ∀ c ∈ L.idle, c < L.born
  lent_born : ∀ t c, L.lent t = some c → c < L.born

variable {L : Lending} {t c : Nat}

theorem sound_new : Sound ⟨[], fun _ => none, 0⟩ :=
  ⟨List.nodup_nil, nofun, nofun, nofun, nofun⟩

theorem lent_of_drop {lent : Nat → Option Nat} {u : Nat} (h : Function.update lent t none u = some c) :
    u ≠ t ∧ lent u = some c := by
  by_cases hut : u = t
  · rw [hut, Function.update_self] at h
    cases h
  · exact ⟨hut, by rwa [Function.update_of_ne hut] at h⟩

/-- Task `t` lets its thing go. -/
theorem Sound.drop (h : L.Sound) (t : Nat) : Sound { L with lent := Function.update L.lent t none } :=
  ⟨h.idle_nodup, fun u d hu => h.apart u d (lent_of_drop hu).2,
    fun u v d hu hv => h.alone u v d (lent_of_drop hu).2 (lent_of_drop hv).2, h.idle_born,
    fun u d hu => h.lent_born u d (lent_of_drop hu).2⟩

/-- Task `t`, whatever it had, gets a thing that is nowhere. -/
theorem Sound.lend (h : L.Sound) {born : Nat} (hborn : L.born ≤ born) (hc : c < born) (hidle : c ∉ L.idle)
    (hlent : ∀ u, L.lent u ≠ some c) : Sound ⟨L.idle, Function.update L.lent t (some c), born⟩ := by
  have hcases {u d : Nat} (hu : Function.update L.lent t (some c) u = some d) :
      u = t ∧ d = c ∨ u ≠ t ∧ L.lent u = some d := by
    by_cases hut : u = t
    · rw [hut, Function.update_self] at hu
      exact .inl ⟨hut, (Option.some.inj hu).symm⟩
    · rw [Function.update_of_ne hut] at hu
      exact .inr ⟨hut, hu⟩
  refine ⟨h.idle_nodup, fun u d hu => ?_, fun u v d hu hv => ?_, fun d hd => ?_, fun u d hu => ?_⟩
  · rcases hcases hu with ⟨-, rfl⟩ | ⟨-, hu⟩
    · exact hidle
    · exact h.apart u d hu
  · rcases hcases hu with ⟨hut, hd⟩ | ⟨-, hu⟩ <;> rcases hcases hv with ⟨hvt, hd'⟩ | ⟨-, hv⟩
    · exact hut.trans hvt.symm
    · exact absurd (hd ▸ hv) (hlent v)
    · exact absurd (hd' ▸ hu) (hlent u)
    · exact h.alone u v d hu hv
  · exact Nat.lt_of_lt_of_le (h.idle_born d hd) hborn
  · rcases hcases hu with ⟨-, rfl⟩ | ⟨-, hu⟩
    · exact hc
    · exact Nat.lt_of_lt_of_le (h.lent_born u d hu) hborn

/-- Task `t` gets a new thing. -/
theorem Sound.make (h : L.Sound) (t : Nat) :
    Sound ⟨L.idle, Function.update L.lent t (some L.born), L.born + 1⟩ :=
  h.lend (Nat.le_succ _) (Nat.lt_succ_self _) (fun hidle => Nat.lt_irrefl _ (h.idle_born _ hidle))
    fun u hu => Nat.lt_irrefl _ (h.lent_born u _ hu)

/-- The store forgets some of its idle things. -/
theorem Sound.keep (h : L.Sound) {idle : List Nat} (hsub : idle.Sublist L.idle) : Sound { L with idle } :=
  ⟨h.idle_nodup.sublist hsub, fun t c ht hc => h.apart t c ht (hsub.subset hc), h.alone,
    fun c hc => h.idle_born c (hsub.subset hc), h.lent_born⟩

/-- Task `t` takes an idle thing, and what is left idle is some of the rest. -/
theorem Sound.pick (h : L.Sound) (t : Nat) {idle : List Nat} (hsub : idle.Sublist L.idle) (hc : c ∈ L.idle)
    (hnot : c ∉ idle) : Sound ⟨idle, Function.update L.lent t (some c), L.born⟩ :=
  (h.keep hsub).lend (Nat.le_refl _) (h.idle_born c hc) hnot fun u hu => h.apart u c hu hc

/-- Task `t` takes the last idle thing. -/
theorem Sound.take (h : L.Sound) (t : Nat) (hc : L.idle.getLast? = some c) :
    Sound ⟨L.idle.dropLast, Function.update L.lent t (some c), L.born⟩ := by
  have hidle : L.idle = L.idle.dropLast ++ [c] := (List.dropLast_append_getLast? c hc).symm
  have hnot : c ∉ L.idle.dropLast := by
    have hnodup := h.idle_nodup
    rw [hidle, List.nodup_append] at hnodup
    exact fun hd => hnodup.2.2 c hd c (List.mem_singleton_self c) rfl
  exact h.pick t (List.dropLast_sublist _) (hidle ▸ List.mem_append_right _ (List.mem_singleton_self c)) hnot

/-- Task `t` gives its thing back. -/
theorem Sound.give (h : L.Sound) (hc : L.lent t = some c) :
    Sound ⟨L.idle ++ [c], Function.update L.lent t none, L.born⟩ := by
  obtain ⟨hnodup, hapart, halone, hidle, hlent⟩ := h.drop t
  refine ⟨?_, fun u d hu hd => ?_, halone, fun d hd => ?_, hlent⟩
  · refine List.nodup_append.mpr ⟨hnodup, List.nodup_singleton c, fun d hd e he => ?_⟩
    obtain rfl := List.mem_singleton.mp he
    rintro rfl
    exact h.apart t d hc hd
  · rcases List.mem_append.mp hd with hd | hd
    · exact hapart u d hu hd
    · obtain rfl := List.mem_singleton.mp hd
      obtain ⟨hut, hu⟩ := lent_of_drop hu
      exact hut (h.alone u t d hu hc)
  · rcases List.mem_append.mp hd with hd | hd
    · exact hidle d hd
    · obtain rfl := List.mem_singleton.mp hd
      exact h.lent_born t d hc

/-! ### How many there are -/

/-- What the first `n` tasks have. -/
def out (L : Lending) (n : Nat) : List Nat := (List.range n).filterMap L.lent

theorem out_length (L : Lending) (n : Nat) : (L.out n).length = total n (fun c => c.toList.length) L.lent := by
  induction n with
  | zero => rfl
  | succ n ih =>
    unfold out total at *
    rw [List.range_succ, List.filterMap_append, List.length_append, ih, Finset.sum_range_succ]
    cases h : L.lent n <;> simp [h]

/-- **No thing is in two places.** -/
theorem Sound.nodup (h : L.Sound) (n : Nat) : (L.idle ++ L.out n).Nodup := by
  refine List.nodup_append.mpr ⟨h.idle_nodup, ?_, fun c hc d hd => ?_⟩
  · exact List.nodup_range.filterMap fun t u c ht hu => h.alone t u c ht hu
  · obtain ⟨t, -, ht⟩ := List.mem_filterMap.mp hd
    rintro rfl
    exact h.apart t c ht hc

end Lending

/-! ### A store behind a semaphore -/

/-- What a task holds of a store. -/
structure Grip where
  permit : Bool := false
  thing : Option Nat := none
  /-- It has found nothing idle, and may make a thing. -/
  wanting : Bool := false

structure Store where
  permits : Nat
  idle : List Nat
  born : Nat
  grips : Nat → Grip

/-- What a task may do. -/
inductive Store.Action where
  | stay
  | acquire
  /-- It takes the last idle thing. -/
  | take (c : Nat)
  | miss
  | make (c : Nat)
  | give (c : Nat)
  /-- It lets its thing go, which is gone then. -/
  | lose
  /-- The idle things are gone. -/
  | clear
  /-- It lets everything go, its permit too. -/
  | leave

def Grip.act (g : Grip) : Store.Action → Grip
  | .stay | .clear => g
  | .acquire => { g with permit := true }
  | .take c | .make c => { g with thing := some c, wanting := false }
  | .miss => { g with wanting := true }
  | .give _ | .lose => { g with thing := none }
  | .leave => {}

/-- What a task with this grip may go on to do. -/
def Grip.Due (g : Grip) : Store.Action → Prop
  | .acquire => g.permit = false
  | .take _ | .miss => g.permit = true ∧ g.thing = none
  | .make _ => g.wanting = true
  | .give c => g.thing = some c
  | _ => True

namespace Store

def act (t : Nat) (a : Action) (L : Store) : Store where
  permits := match a with
    | .acquire => L.permits - 1
    | .leave => L.permits + (L.grips t).permit.toNat
    | _ => L.permits
  idle := match a with
    | .take _ => L.idle.dropLast
    | .give c => L.idle ++ [c]
    | .clear => []
    | _ => L.idle
  born := match a with
    | .make _ => L.born + 1
    | _ => L.born
  grips := Function.update L.grips t ((L.grips t).act a)

/-- The store answers as the action says. -/
def Answers (L : Store) : Action → Prop
  | .acquire => L.permits ≠ 0
  | .take c => L.idle.getLast? = some c
  | .miss => L.idle = []
  | .make c => c = L.born
  | _ => True

end Store

/-- A thing that a task has, or may make. -/
def Grip.claims (g : Grip) : Nat := g.thing.toList.length + g.wanting.toNat

/-- There were `max` permits, and there are no more things than that. -/
structure Rationed (max n : Nat) (L : Store) : Prop where
  permits : L.permits + total n (fun g => g.permit.toNat) L.grips = max
  sound : Lending.Sound ⟨L.idle, Grip.thing ∘ L.grips, L.born⟩
  backed : ∀ t, (L.grips t).claims ≤ (L.grips t).permit.toNat
  bound : L.idle.length + total n Grip.claims L.grips ≤ max

namespace Rationed
variable {max n t : Nat} {L : Store} {a : Store.Action}

theorem new (max n : Nat) : Rationed max n ⟨max, [], 0, fun _ => {}⟩ := by
  have hzero (f : Grip → Nat) (hf : f {} = 0) : total n f (fun _ => {}) = 0 := total_eq_zero.mpr fun _ _ => hf
  refine ⟨?_, Lending.sound_new, fun _ => Nat.le_refl _, ?_⟩
  · rw [hzero _ rfl, Nat.add_zero]
  · rw [hzero _ rfl]
    exact Nat.zero_le _

/-- Whoever has a thing, or may make one, has a permit. -/
theorem backed_act (h : Rationed max n L) (hd : (L.grips t).Due a) :
    ((L.grips t).act a).claims ≤ ((L.grips t).act a).permit.toNat := by
  have hbacked := h.backed t
  unfold Grip.claims at *
  cases a with
  | acquire =>
    rw [show (L.grips t).permit = false from hd] at hbacked
    exact Nat.le_trans hbacked (Nat.zero_le _)
  | take c =>
    obtain ⟨hpermit, -⟩ := hd
    simp [Grip.act, hpermit]
  | miss =>
    obtain ⟨hpermit, hnone⟩ := hd
    simp [Grip.act, hpermit, hnone]
  | make c =>
    rw [show (L.grips t).wanting = true from hd] at hbacked
    simp only [Grip.act, Option.toList_some, List.length_singleton, Bool.toNat_false, Bool.toNat_true] at *
    omega
  | give c | lose =>
    simp only [Grip.act, Option.toList_none, List.length_nil]
    omega
  | leave => exact Nat.le_refl _
  | _ => exact hbacked

theorem sound_act (h : Rationed max n L) (hd : (L.grips t).Due a) (ha : L.Answers a) :
    Lending.Sound ⟨(L.act t a).idle, Grip.thing ∘ (L.act t a).grips, (L.act t a).born⟩ := by
  rw [show Grip.thing ∘ (L.act t a).grips = Function.update (Grip.thing ∘ L.grips) t ((L.grips t).act a).thing from
    Function.comp_update ..]
  have hsame : Function.update (Grip.thing ∘ L.grips) t (L.grips t).thing = Grip.thing ∘ L.grips :=
    Function.update_eq_self t (Grip.thing ∘ L.grips)
  cases a with
  | take c => exact h.sound.take t ha
  | make c =>
    obtain rfl : c = L.born := ha
    exact h.sound.make t
  | give c => exact h.sound.give hd
  | lose | leave => exact h.sound.drop t
  | clear =>
    show Lending.Sound ⟨[], Function.update _ t (L.grips t).thing, L.born⟩
    rw [hsame]
    exact h.sound.keep (List.nil_sublist _)
  | _ =>
    show Lending.Sound ⟨L.idle, Function.update _ t (L.grips t).thing, L.born⟩
    rw [hsame]
    exact h.sound

/-- A permit is free or held. -/
theorem permits_act (hd : (L.grips t).Due a) (ha : L.Answers a) :
    (L.act t a).permits + ((L.grips t).act a).permit.toNat = L.permits + (L.grips t).permit.toNat := by
  cases a with
  | acquire =>
    have hfree : L.permits ≠ 0 := ha
    rw [show (L.grips t).permit = false from hd]
    show L.permits - 1 + 1 = L.permits + 0
    omega
  | _ => rfl

/-- Only a task that finds nothing idle comes to claim something more. -/
theorem claims_act (h : Rationed max n L) (hd : (L.grips t).Due a) (ha : L.Answers a) (hne : a ≠ .miss) :
    (L.act t a).idle.length + ((L.grips t).act a).claims ≤ L.idle.length + (L.grips t).claims := by
  have hbacked := h.backed t
  unfold Grip.claims at *
  cases a with
  | take c =>
    have hlast : L.idle.length = L.idle.dropLast.length + 1 := by
      rw [← List.dropLast_append_getLast? c ha]
      simp
    show L.idle.dropLast.length + 1 ≤ _
    omega
  | miss => exact absurd rfl hne
  | make c =>
    rw [show (L.grips t).wanting = true from hd]
    show L.idle.length + 1 ≤ _ + (_ + 1)
    omega
  | give c =>
    rw [show (L.grips t).thing = some c from hd]
    show (L.idle ++ [c]).length + (0 + (L.grips t).wanting.toNat) ≤ _ + (1 + _)
    rw [List.length_append, List.length_singleton]
    omega
  | lose =>
    show L.idle.length + (0 + (L.grips t).wanting.toNat) ≤ _
    omega
  | leave =>
    show L.idle.length + 0 ≤ _
    omega
  | clear =>
    exact Nat.add_le_add_right (Nat.zero_le _) _
  | _ => exact Nat.le_refl _

/-- **No action makes more things than there were permits.** -/
theorem act (h : Rationed max n L) (ht : t < n) (hd : (L.grips t).Due a) (ha : L.Answers a) :
    Rationed max n (L.act t a) := by
  have hpermits := h.permits
  have hbound := h.bound
  have hpermit : total n (fun g => g.permit.toNat) (L.act t a).grips + (L.grips t).permit.toNat =
      total n (fun g => g.permit.toNat) L.grips + ((L.grips t).act a).permit.toNat :=
    total_update (f := fun g : Grip => g.permit.toNat) ht _
  have hclaim : total n Grip.claims (L.act t a).grips + (L.grips t).claims =
      total n Grip.claims L.grips + ((L.grips t).act a).claims := total_update ht _
  have hbacked : ∀ u, ((L.act t a).grips u).claims ≤ ((L.act t a).grips u).permit.toNat :=
    (Function.forall_update_iff L.grips fun u g => g.claims ≤ g.permit.toNat).mpr
      ⟨h.backed_act hd, fun u _ => h.backed u⟩
  have hpermits' : (L.act t a).permits + total n (fun g => g.permit.toNat) (L.act t a).grips = max := by
    have hone := permits_act hd ha
    omega
  refine ⟨hpermits', h.sound_act hd ha, hbacked, ?_⟩
  by_cases hmiss : a = .miss
  · -- Nothing is idle, and everyone who claims something does so under a permit.
    have hempty : (L.act t a).idle = [] := by
      subst hmiss
      exact ha
    have hle : total n Grip.claims (L.act t a).grips ≤ total n (fun g => g.permit.toNat) (L.act t a).grips :=
      total_mono fun u _ => hbacked u
    rw [hempty, List.length_nil]
    omega
  · have hone := h.claims_act hd ha hmiss
    omega

/-- The things, idle and with tasks, are no more than there were permits, and each is in one place. -/
theorem things (h : Rationed max n L) :
    (L.idle ++ (Lending.mk L.idle (Grip.thing ∘ L.grips) L.born).out n).length ≤ max ∧
    (L.idle ++ (Lending.mk L.idle (Grip.thing ∘ L.grips) L.born).out n).Nodup := by
  refine ⟨?_, h.sound.nodup n⟩
  rw [List.length_append, Lending.out_length]
  have hle : total n (fun g : Grip => g.thing.toList.length) L.grips ≤ total n Grip.claims L.grips :=
    total_mono fun u _ => Nat.le_add_right _ _
  exact Nat.le_trans (Nat.add_le_add_left hle _) h.bound

end Rationed

end Async
