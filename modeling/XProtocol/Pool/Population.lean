import XProtocol.Json.Text
import XProtocol.Pool.Limits

/-! What the pool of Unix-socket clients counts.

With room for as many idle clients as there are permits, `createdClients` is the number of
clients, idle and with calls, as long as two things do not happen: a call drops its client
and leaves it counted, or `close` resets the counter while a call is counted. Then at
rest it is the number of idle clients (`pooledCount_eq`). -/
namespace XProtocol.UdsClientPool
open Async
open Json (Value Codec)
open Json.Text (compact)

/-- No client is dropped by its call, and the counter is reset only while no call is counted. -/
def Counts (w : World × (Nat → Hand)) (t : Nat) : Op → Choice → Prop
  | .discard _, _ => False
  | .release, _ => (w.2 t).grip.thing = none
  | .resetCreated, _ => ∀ t, (w.2 t).counted = false
  | _, _ => True

/-- The clients are counted: the idle ones, those that `close` has removed and not yet taken off the
counter, and those of calls. -/
structure Census (max n : Nat) (p : UdsClientPool) (γ : Nat → Hand) (removed : Nat) : Prop where
  created : p.createdClients = p.pool.length + removed + total n (fun g => g.counted.toNat) γ
  bound : p.pool.length + removed + total n (fun g => g.grip.claims) γ ≤ max
  clearing : ∀ t, (γ t).clearing = true → (γ t).locked = true ∧ p.pool = []
  settled : (∀ t, (γ t).clearing = false) → removed = 0
  spilled : ∀ t, (γ t).spilled = false
  /-- A call is counted for a client that it has or may make. -/
  counted : ∀ t, (γ t).counted.toNat ≤ (γ t).grip.claims

section
variable {m max n t removed : Nat} {p p' : UdsClientPool} {γ : Nat → Hand} {o : Op} {r : Calls.Ret o}

/-- Whoever has the lock, and is not clearing the pool, finds that nobody is. -/
theorem Census.quiet (h : Census max n p γ removed) (hlocks : Locks p γ) (hlocked : (γ t).locked = true)
    (hclearing : (γ t).clearing = false) : (∀ u, (γ u).clearing = false) ∧ removed = 0 := by
  have hquiet (u : Nat) : (γ u).clearing = false := by
    by_contra hu
    have hu : (γ u).clearing = true := by simpa using hu
    obtain rfl := hlocks.alone hlocked (h.clearing u hu).1
    exact Bool.false_ne_true (hclearing.symm.trans hu)
  exact ⟨hquiet, h.settled hquiet⟩

/-- A call that is about to count itself finds the counter below the number of permits. -/
theorem Census.below (h : Census max n p γ removed) (ht : t < n) (hwanting : (γ t).grip.wanting = true)
    (hcounted : (γ t).counted = false) : p.createdClients < max := by
  have hclaims : 1 ≤ (γ t).grip.claims := by
    rw [Grip.claims, hwanting]
    exact Nat.le_add_left 1 _
  have hlt : total n (fun g => g.counted.toNat) γ < total n (fun g => g.grip.claims) γ := by
    refine Finset.sum_lt_sum (fun u _ => h.counted u) ⟨t, Finset.mem_range.mpr ht, ?_⟩
    show (γ t).counted.toNat < _
    rw [hcounted]
    exact hclaims
  have hcreated := h.created
  have hbound := h.bound
  omega

section Entry
variable {g : Hand} {removed' : Nat}

/-- What an entry has to show. -/
theorem Census.entry (h : Census max n p γ removed) (ht : t < n)
    (hcreated : p'.createdClients + p.pool.length + removed + (γ t).counted.toNat =
      p.createdClients + p'.pool.length + removed' + g.counted.toNat)
    (hbound : p'.pool.length + removed' + total n (fun g => g.grip.claims) (Function.update γ t g) ≤ max)
    (hclearing : ∀ u, (Function.update γ t g u).clearing = true →
      (Function.update γ t g u).locked = true ∧ p'.pool = [])
    (hsettled : (∀ u, (Function.update γ t g u).clearing = false) → removed' = 0)
    (hspilled : g.spilled = false) (hcounted : g.counted.toNat ≤ g.grip.claims) :
    Census max n p' (Function.update γ t g) removed' := by
  refine ⟨?_, hbound, hclearing, hsettled, ?_, ?_⟩
  · have htotal := total_update (f := fun g : Hand => g.counted.toNat) (γ := γ) ht g
    have hold := h.created
    omega
  · exact (Function.forall_update_iff γ fun u g => g.spilled = false).mpr ⟨hspilled, fun u _ => h.spilled u⟩
  · exact (Function.forall_update_iff γ fun u g => g.counted.toNat ≤ g.grip.claims).mpr
      ⟨hcounted, fun u _ => h.counted u⟩

theorem Census.bound_entry (h : Census max n p γ removed) (ht : t < n)
    (hle : p'.pool.length + removed' + g.grip.claims ≤ p.pool.length + removed + (γ t).grip.claims) :
    p'.pool.length + removed' + total n (fun g => g.grip.claims) (Function.update γ t g) ≤ max := by
  have htotal := total_update (f := fun g : Hand => g.grip.claims) (γ := γ) ht g
  have hold := h.bound
  omega

/-- An entry that leaves the clients and the counter alone. -/
theorem Census.plain (h : Census max n p γ removed) (ht : t < n) (hcreated : p'.createdClients = p.createdClients)
    (hpool : p'.pool = p.pool) (hgcounted : g.counted = (γ t).counted) (hclaims : g.grip.claims ≤ (γ t).grip.claims)
    (hclearing : g.clearing = (γ t).clearing)
    (hlocked : g.clearing = true → (γ t).locked = true → g.locked = true)
    (hspilled : g.spilled = (γ t).spilled) (hcounted : (γ t).counted.toNat ≤ g.grip.claims) :
    Census max n p' (Function.update γ t g) removed := by
  have hsame : ∀ u, (Function.update γ t g u).clearing = (γ u).clearing :=
    (Function.forall_update_iff γ fun u g => g.clearing = (γ u).clearing).mpr ⟨hclearing, fun _ _ => rfl⟩
  refine h.entry ht (by rw [hcreated, hpool, hgcounted]) (h.bound_entry ht ?_) ?_
    (fun hall => h.settled fun u => (hsame u).symm.trans (hall u)) (hspilled.trans (h.spilled t))
    (hgcounted ▸ hcounted)
  · rw [hpool]
    exact Nat.add_le_add_left hclaims _
  · rw [hpool]
    refine (Function.forall_update_iff γ fun u g => g.clearing = true → g.locked = true ∧ p.pool = []).mpr
      ⟨fun hc => ?_, fun u _ => h.clearing u⟩
    obtain ⟨hl, hempty⟩ := h.clearing t (hclearing ▸ hc)
    exact ⟨hlocked hc hl, hempty⟩

/-- An entry made under the lock, while nobody clears the pool. -/
theorem Census.locked (h : Census max n p γ removed) (hlocks : Locks p γ) (ht : t < n)
    (hlocked : (γ t).locked = true) (hquiet : (γ t).clearing = false) (hclearing : g.clearing = false)
    (hcreated : p'.createdClients + p.pool.length + (γ t).counted.toNat =
      p.createdClients + p'.pool.length + g.counted.toNat)
    (hbound : p'.pool.length + total n (fun g => g.grip.claims) (Function.update γ t g) ≤ max)
    (hspilled : g.spilled = (γ t).spilled) (hcounted : g.counted.toNat ≤ g.grip.claims) :
    Census max n p' (Function.update γ t g) 0 := by
  obtain ⟨hall, rfl⟩ := h.quiet hlocks hlocked hquiet
  have hnone : ∀ u, (Function.update γ t g u).clearing = false :=
    (Function.forall_update_iff γ fun u g => g.clearing = false).mpr ⟨hclearing, fun u _ => hall u⟩
  exact h.entry ht hcreated hbound (fun u hu => (Bool.false_ne_true ((hnone u).symm.trans hu)).elim)
    (fun _ => rfl) (hspilled.trans (h.spilled t)) hcounted

end Entry

/-- A call counts itself below `maxPoolSize`, so that it does not spill. -/
theorem Census.addCreated (h : Census max n p γ removed) (hm : max ≤ m) (hsize : max < usizeSize) (ht : t < n)
    (hwanting : (γ t).grip.wanting = true) (hcounted : (γ t).counted = false) :
    Census max n { p with createdClients := usizeSucc p.createdClients }
      (Function.update γ t ((γ t).after m .addCreated p.createdClients)) removed := by
  have hbelow := h.below ht hwanting hcounted
  have hsucc : usizeSucc p.createdClients = p.createdClients + 1 := if_neg (by omega)
  have hunspilled : decide (m ≤ p.createdClients) = false := decide_eq_false (by omega)
  have hsame : ∀ u, (Function.update γ t ((γ t).after m .addCreated p.createdClients) u).clearing =
    (γ u).clearing :=
    (Function.forall_update_iff γ fun u g => g.clearing = (γ u).clearing).mpr ⟨rfl, fun _ _ => rfl⟩
  refine h.entry ht ?_ (h.bound_entry ht (Nat.le_refl _)) ?_
    (fun hall => h.settled fun u => (hsame u).symm.trans (hall u)) ?_ ?_
  · show usizeSucc p.createdClients + p.pool.length + removed + (γ t).counted.toNat =
      p.createdClients + p.pool.length + removed + 1
    rw [hsucc, hcounted, Bool.toNat_false]
    omega
  · exact (Function.forall_update_iff γ fun u g => g.clearing = true → g.locked = true ∧ p.pool = []).mpr
      ⟨h.clearing t, fun u _ => h.clearing u⟩
  · show ((γ t).spilled || decide (m ≤ p.createdClients)) = false
    rw [h.spilled t, hunspilled]
    rfl
  · show 1 ≤ (γ t).grip.claims
    rw [Grip.claims, hwanting]
    exact Nat.le_add_left 1 _

/-- `close` takes the idle clients off the counter together with the pool. -/
theorem Census.reset (h : Census max n p γ removed) (ht : t < n)
    (hclearing : (γ t).clearing = true) (hnone : ∀ u, (γ u).counted = false) :
    Census max n { p with createdClients := 0 } (Function.update γ t { γ t with clearing := false }) 0 := by
  obtain ⟨hlocked, hempty⟩ := h.clearing t hclearing
  have hzero : total n (fun g : Hand => g.counted.toNat) γ = 0 := total_eq_zero.mpr fun u _ => by rw [hnone u]; rfl
  have hcreated := h.created
  refine h.entry ht ?_ (h.bound_entry ht ?_) ?_ (fun _ => rfl) (h.spilled t) (h.counted t)
  · show 0 + p.pool.length + removed + (γ t).counted.toNat =
      p.createdClients + p.pool.length + 0 + (γ t).counted.toNat
    have hlength : p.pool.length = 0 := by rw [hempty, List.length_nil]
    omega
  · show p.pool.length + 0 + (γ t).grip.claims ≤ _
    omega
  · refine (Function.forall_update_iff γ fun u g => g.clearing = true → g.locked = true ∧ p.pool = []).mpr
      ⟨nofun, fun u _ => h.clearing u⟩

theorem Census.step {w : World} {choice : Choice} (h : Census max n w.pool γ removed) (hm : max ≤ m)
    (hsize : max < usizeSize) (hlocks : Locks w.pool γ)
    (hrationed' : Rationed max n (store p' (Function.update γ t ((γ t).after m o r)))) (ht : t < n)
    (hd : (γ t).demand o) (hcounts : Counts (w, γ) t o choice) (heffect : Effect t w.pool p' o r) :
    ∃ removed', Census max n p' (Function.update γ t ((γ t).after m o r)) removed' := by
  have hbound' : p'.pool.length +
      total n (fun g => g.grip.claims) (Function.update γ t ((γ t).after m o r)) ≤ max := hrationed'.bound
  have hold := h.counted t
  obtain ⟨hallowed, rfl⟩ := heffect
  cases o with
  | discard client => exact hcounts.elim
  | release =>
    rw [Grip.claims, hcounts, hd.2.1] at hold
    exact ⟨removed, h.plain ht rfl rfl rfl (Nat.zero_le _) rfl (fun _ => id) rfl hold⟩
  | pop =>
    obtain ⟨hlocked, hquiet, -, -, huncounted, -⟩ := hd
    cases r with
    | some client =>
      have hlength : w.pool.pool.length = w.pool.pool.dropLast.length + 1 := by
        rw [← List.dropLast_append_getLast? client hallowed.symm]
        simp
      refine ⟨0, h.locked hlocks ht hlocked hquiet hquiet ?_ hbound' rfl (Nat.le_refl _)⟩
      show w.pool.createdClients + w.pool.pool.length + (γ t).counted.toNat =
        w.pool.createdClients + w.pool.pool.dropLast.length + 1
      rw [huncounted, Bool.toNat_false]
      omega
    | none =>
      have hempty : w.pool.pool = [] := List.getLast?_eq_none_iff.mp hallowed.symm
      refine ⟨0, h.locked hlocks ht hlocked hquiet hquiet ?_ hbound' rfl ?_⟩
      · show _ + w.pool.pool.length + _ = _ + w.pool.pool.dropLast.length + _
        rw [hempty]
        rfl
      · show (γ t).counted.toNat ≤ _
        rw [huncounted]
        exact Nat.zero_le _
  | push client =>
    obtain ⟨hlocked, hquiet, -, -, hcounted, -⟩ := hd
    have hcounted : (γ t).counted = true := hcounted.resolve_right fun hs =>
      Bool.false_ne_true ((h.spilled t).symm.trans hs)
    refine ⟨0, h.locked hlocks ht hlocked hquiet hquiet ?_ hbound' rfl (Nat.zero_le _)⟩
    show w.pool.createdClients + w.pool.pool.length + (γ t).counted.toNat =
      w.pool.createdClients + (w.pool.pool ++ [client]).length + 0
    rw [hcounted, List.length_append]
    rfl
  | clear =>
    obtain ⟨hlocked, hquiet⟩ := hd
    obtain ⟨hall, rfl⟩ := h.quiet hlocks hlocked hquiet
    refine ⟨w.pool.pool.length, h.entry ht ?_ (h.bound_entry ht ?_) ?_ (fun hall => ?_) (h.spilled t) hold⟩
    · show w.pool.createdClients + w.pool.pool.length + 0 + (γ t).counted.toNat =
        w.pool.createdClients + 0 + w.pool.pool.length + (γ t).counted.toNat
      omega
    · show 0 + w.pool.pool.length + (γ t).grip.claims ≤ w.pool.pool.length + 0 + (γ t).grip.claims
      omega
    · exact (Function.forall_update_iff γ fun u g => g.clearing = true → g.locked = true ∧ _ = []).mpr
        ⟨fun _ => ⟨hlocked, rfl⟩, fun u _ hu => absurd ((hall u).symm.trans hu) Bool.false_ne_true⟩
    · have ht := hall t
      rw [Function.update_self] at ht
      cases ht
  | resetCreated => exact ⟨0, h.reset ht hd hcounts⟩
  | addCreated =>
    obtain rfl : r = w.pool.createdClients := hallowed
    exact ⟨removed, h.addCreated hm hsize ht hd.1 hd.2⟩
  | subCreated => exact absurd ((h.spilled t).symm.trans hd) Bool.false_ne_true
  | newClient =>
    have hle : (1 : Nat) ≤ (γ t).grip.claims := by
      rw [Grip.claims, hd.1]
      exact Nat.le_add_left 1 _
    exact ⟨removed, h.plain ht rfl rfl rfl hle rfl (fun _ => id) rfl (Bool.toNat_le _)⟩
  | unlockPool =>
    exact ⟨removed, h.plain ht rfl rfl rfl (Nat.le_refl _) rfl
      (fun hc => absurd (hd.2.symm.trans hc) Bool.false_ne_true) rfl hold⟩
  | lockPool => exact ⟨removed, h.plain ht rfl rfl rfl (Nat.le_refl _) rfl (fun _ _ => rfl) rfl hold⟩
  | acquire =>
    cases r <;> exact ⟨removed, h.plain ht rfl rfl rfl (Nat.le_refl _) rfl (fun _ => id) rfl hold⟩
  | _ => exact ⟨removed, h.plain ht rfl rfl rfl (Nat.le_refl _) rfl (fun _ => id) rfl hold⟩

end

/-! ### Runs -/

/-- The pool keeps its limits, and counts its clients. -/
def Counted (m max n : Nat) (p : UdsClientPool) (γ : Nat → Hand) : Prop :=
  Limits m max n p γ ∧ ∃ removed, Census max n p γ removed

theorem counted_keeps {m max : Nat} (n : Nat) (hm : max ≤ m) (hsize : max < usizeSize) :
    Keeps machine Hand.demand (Hand.after m) (fun w t o choice => t < n ∧ Counts w t o choice)
      fun w γ => Counted m max n w.pool γ := by
  rintro w γ t o choice r w' ⟨hlimits, removed, hcensus⟩ hd ⟨ht, hcounts⟩ hstep
  have hlimits' := limits_keeps m max n w γ t o choice r w' hlimits hd ht hstep
  exact ⟨hlimits', hcensus.step hm hsize hlimits.locks hlimits'.rationed ht hd hcounts (perform_effect hstep)⟩

section
variable {S : Codec} {maxConcurrent maxPoolSize : Nat} {jobs : List Job} {ls : List (Nat × Choice)} {s : Handed}

theorem start_counted (S : Codec) (maxConcurrent maxPoolSize : Nat) (jobs : List Job) :
    Balanced (handling maxPoolSize) (fun w γ => Counted maxPoolSize maxConcurrent
      (startHanded S maxConcurrent maxPoolSize jobs).tasks.length w.pool γ)
      (fun _ g _ => Done g) (startHanded S maxConcurrent maxPoolSize jobs) := by
  obtain ⟨hlimits, hsafe⟩ := start_balanced S maxConcurrent maxPoolSize jobs
  have hzero (f : Hand → Nat) (hf : f {} = 0) : total (startHanded S maxConcurrent maxPoolSize jobs).tasks.length f
      (startHanded S maxConcurrent maxPoolSize jobs).world.2 = 0 := total_eq_zero.mpr fun _ _ => hf
  refine ⟨⟨hlimits, 0, ?_, ?_, nofun, fun _ => rfl, fun _ => rfl, fun _ => Nat.le_refl _⟩, hsafe⟩
  · show 0 = 0 + 0 + _
    rw [hzero (fun g => g.counted.toNat) rfl]
  · show 0 + 0 + _ ≤ _
    rw [hzero (fun g => g.grip.claims) rfl]
    exact Nat.zero_le _

/-- **At rest, the counter is the number of idle clients**: in every run in which no call drops its
client and `close` resets the counter only while no call is counted. -/
theorem pooledCount_eq (hm : maxConcurrent ≤ maxPoolSize) (hsize : maxConcurrent < usizeSize)
    (hrun : (startHanded S maxConcurrent maxPoolSize jobs).run
      (machine.ledger (Hand.after maxPoolSize)) ls = some s)
    (hcounts : (startHanded S maxConcurrent maxPoolSize jobs).Along (machine.ledger (Hand.after maxPoolSize))
      (Config.Performs Counts) ls)
    (hrest : ∀ t ∈ ls.map Prod.fst, s.returned t ≠ none) :
    s.world.1.pool.pooledCount = s.world.1.pool.pool.length := by
  have hbalanced := run_balanced (counted_keeps _ hm hsize) hrun
    (Config.along_performs_and (Config.along_tasks _ ls) hcounts) (start_counted S maxConcurrent maxPoolSize jobs)
  obtain ⟨hlimits, removed, hcensus⟩ := hbalanced.1
  have hdone (t : Nat) : Done (s.world.2 t) := by
    by_cases hmoved : t ∈ ls.map Prod.fst
    · obtain ⟨a, ha⟩ := Option.ne_none_iff_exists'.mp (hrest t hmoved)
      exact hbalanced.returned ha
    · rw [Config.run_unmoved hrun hmoved]
      exact ⟨rfl, rfl, rfl⟩
  have huncounted : total (startHanded S maxConcurrent maxPoolSize jobs).tasks.length
      (fun g : Hand => g.counted.toNat) s.world.2 = 0 := by
    refine total_eq_zero.mpr fun t _ => Nat.le_zero.mp (Nat.le_trans (hcensus.counted t) ?_)
    have hbacked : (s.world.2 t).grip.claims ≤ (s.world.2 t).grip.permit.toNat := hlimits.rationed.backed t
    rw [(hdone t).permit] at hbacked
    exact hbacked
  obtain rfl := hcensus.settled fun t => (hdone t).clearing
  have hcreated := hcensus.created
  rw [huncounted] at hcreated
  exact hcreated

end

/-! ### A client that is dropped -/

def saying : Job := .call "echo" "say" .null

/-- The one call of the run makes a client, and its connect fails. -/
def failing : List (Nat × Choice) := goes 0 8 ++ [(0, .fail 0 [] "refused")] ++ goes 0 6

/-- Its connect takes too long: the client is dropped. -/
def timingOut : List (Nat × Choice) := goes 0 8 ++ [(0, .elapse [])] ++ goes 0 3

/-- No client is dropped, and the counter is not reset. -/
def Steady (w : World × (Nat → Hand)) (t : Nat) (o : Op) (_ : Choice) : Prop :=
  (match o with
    | .discard _ | .resetCreated => false
    | .release => (w.2 t).grip.thing.isNone
    | _ => true) = true

instance (w : World × (Nat → Hand)) (t : Nat) (o : Op) (choice : Choice) : Decidable (Steady w t o choice) :=
  inferInstanceAs (Decidable (_ = _))

theorem pooledCount_eq_failing :
    ∃ s, (startHanded compact 1 1 [saying]).run (machine.ledger (Hand.after 1)) failing = some s ∧
      s.world.1.pool.pooledCount = s.world.1.pool.pool.length := by
  have hend : ((startHanded compact 1 1 [saying]).run (machine.ledger (Hand.after 1)) failing).any
      fun s => (s.returned 0).isSome := by decide +kernel
  have hsteady : (startHanded compact 1 1 [saying]).Along (machine.ledger (Hand.after 1)) (Config.Performs Steady)
      failing := Config.along_of_checks (by decide +kernel)
  obtain ⟨s, hrun, hs⟩ := (Option.any_eq_true _ _).mp hend
  refine ⟨s, hrun, pooledCount_eq (Nat.le_refl 1) (by decide) hrun (Config.along_mono ?_ hsteady) ?_⟩
  · intro s l h o k hp
    have ho := h o k hp
    unfold Steady at ho
    unfold Counts
    split <;> simp_all
  · intro t ht
    obtain rfl : t = 0 := by simpa [failing, goes] using ht
    exact Option.isSome_iff_ne_none.mp hs

theorem timingOut_miscounted :
    ∃ s, (start compact 1 1 [saying]).run machine timingOut = some s ∧
      (∀ t ∈ timingOut.map Prod.fst, s.returned t ≠ none) ∧
      s.world.pool.pooledCount ≠ s.world.pool.pool.length := by
  have hend : ((start compact 1 1 [saying]).run machine timingOut).any fun s =>
      (s.returned 0).isSome && s.world.pool.pooledCount == 1 && s.world.pool.pool.length == 0 := by
    decide +kernel
  obtain ⟨s, hrun, hs⟩ := (Option.any_eq_true _ _).mp hend
  simp only [Bool.and_eq_true, beq_iff_eq] at hs
  obtain ⟨⟨hreturned, hcount⟩, hidle⟩ := hs
  refine ⟨s, hrun, fun t ht => ?_, by omega⟩
  obtain rfl : t = 0 := by simpa [timingOut, goes] using ht
  exact Option.isSome_iff_ne_none.mp hreturned

end XProtocol.UdsClientPool
