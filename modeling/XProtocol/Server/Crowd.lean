import Mathlib.Algebra.BigOperators.Ring.Finset
import Mathlib.Order.Bounds.Defs
import Mathlib.Order.Lattice.Nat
import XProtocol.Async.Ledger
import XProtocol.Server.Capacity

/-! Several servers in one process.

`ACTIVE_CONNECTIONS` is a static. Each accept loop of a process compares it with the
`max_connections` of its own server, and raises it in a later step; the loops run side by
side. So loops that have passed their comparison may each count one more connection, and the
process holds as many as the largest limit allows and one more for each other loop, but never
more (`active_greatest`). -/
namespace XProtocol.UdsServer
open Async (total total_update)

/-- A server, as its accept loop is started. -/
structure Server (σ : Type) where
  site : Site σ
  flush : Nat → Nat → Option String
  setup : Setup
  panics : Panics σ
  maxConnections : Nat

/-- The accept loops of a process, and the counter that they share. -/
structure Process (σ : Type) where
  activeConnections : Nat
  listener : Nat → Listener σ

namespace Process
variable {σ : Type} (n : Nat) (servers : Nat → Server σ)

def fresh (handler : Nat → σ) : Process σ where
  activeConnections := 0
  listener i := .fresh (servers i).setup (handler i)

/-- The process after a step of loop `i` that has left it as `x`. -/
def turned (s : Process σ) (i : Nat) (x : Listener σ) : Process σ :=
  { activeConnections := x.activeConnections, listener := Function.update s.listener i x }

/-- A step of one of the `n` servers, on the counter of all. -/
def step (s : Process σ) (l : Nat × Event) : Process σ :=
  if l.1 < n then
    let v := servers l.1
    let x := { s.listener l.1 with activeConnections := s.activeConnections }
    s.turned l.1 (x.step v.site v.flush v.setup v.panics v.maxConnections l.2)
  else s

def run (s : Process σ) (ls : List (Nat × Event)) : Process σ := ls.foldl (step n servers) s

/-- The largest of the limits. -/
def limit : Nat := (Finset.range n).sup fun i => (servers i).maxConnections

/-- The servers that accept connections at all. -/
def willing : Finset Nat := (Finset.range n).filter fun i => 0 < (servers i).maxConnections

/-- The most connections that the counter ever shows. -/
def room : Nat := limit n servers + (willing n servers).card - 1

/-! ### Never more -/

/-- A loop that has passed its comparison. -/
def passed (x : Listener σ) : Nat := if x.stage = .passed then 1 else 0

/-- The connections that the counter shows for a loop. -/
def shown (x : Listener σ) : Nat := x.alive + x.tasks.count .panicked

structure Within (s : Process σ) : Prop where
  counter : s.activeConnections = total n shown s.listener
  bound : s.activeConnections + total n passed s.listener ≤ room n servers
  willing : ∀ i < n, (s.listener i).stage = .passed → 0 < (servers i).maxConnections

variable {n servers}

theorem within_fresh (handler : Nat → σ) : Within n servers (fresh servers handler) where
  counter := (Async.total_eq_zero.mpr fun _ _ => rfl).symm
  bound := by
    have hnone : total n passed (fresh servers handler).listener = 0 := Async.total_eq_zero.mpr fun _ _ => rfl
    rw [hnone]
    exact Nat.zero_le _
  willing _ _ h := nomatch h

/-- What a step of a loop does to the counter is what it does to the loop's connections; and more can be expected of
the loop only where it has found the counter below its limit. -/
theorem step_shown (v : Server σ) (x : Listener σ) (e : Event) (hactive : x.activeConnections < 2 ^ 64)
    (hcount : x.stage = .passed → x.activeConnections + 1 < 2 ^ 64) (hshown : shown x ≤ x.activeConnections)
    {x' : Listener σ} (hx' : x' = x.step v.site v.flush v.setup v.panics v.maxConnections e) :
    x'.activeConnections + shown x = x.activeConnections + shown x' ∧
      ((x'.activeConnections + passed x' ≤ x.activeConnections + passed x ∧
          (x'.stage = .passed → x.stage = .passed)) ∨
        (x.activeConnections < v.maxConnections ∧ x'.activeConnections = x.activeConnections)) := by
  have heffect := Listener.step_effect v.site v.flush v.setup v.panics v.maxConnections x e
  rw [← hx'] at heffect
  unfold shown Listener.alive at *
  unfold passed
  cases heffect with
  | stay hq hsame hstage halive hpanicked =>
    rw [hsame, hstage, halive, hpanicked]
    exact ⟨rfl, .inl ⟨Nat.le_refl _, id⟩⟩
  | pass hq hbelow haccepting hs' =>
    rw [hs', haccepting]
    exact ⟨rfl, .inr ⟨hbelow, rfl⟩⟩
  | count hq hpassed hs' =>
    have hadd : fetchAdd x.activeConnections 1 = x.activeConnections + 1 := Nat.mod_eq_of_lt (hcount hpassed)
    rw [hs', hpassed, hadd]
    refine ⟨?_, .inl ⟨Nat.le_refl _, nofun⟩⟩
    simp only [reduceCtorEq, if_false, if_true]
    omega
  | spawn hq hcounted hs' =>
    rw [hs', hcounted]
    refine ⟨?_, .inl ⟨Nat.le_refl _, nofun⟩⟩
    simp [Status.alive]
  | panic hq hsame hstage halive hpanicked =>
    rw [hsame, hstage]
    exact ⟨by omega, .inl ⟨Nat.le_refl _, id⟩⟩
  | release hq hsame hstage halive hpanicked =>
    have hsub : fetchSub x.activeConnections 1 = x.activeConnections - 1 := by
      unfold fetchSub
      omega
    rw [hsame, hstage, hsub]
    exact ⟨by omega, .inl ⟨by omega, id⟩⟩

theorem step_within (hroom : room n servers < 2 ^ 64) {s : Process σ} (h : Within n servers s) (l : Nat × Event) :
    Within n servers (s.step n servers l) := by
  obtain ⟨i, e⟩ := l
  unfold step
  dsimp only
  split
  · next hi =>
    let x : Listener σ := { s.listener i with activeConnections := s.activeConnections }
    obtain ⟨x', hx'⟩ : ∃ x', x' = x.step (servers i).site (servers i).flush (servers i).setup (servers i).panics
      (servers i).maxConnections e := ⟨_, rfl⟩
    show Within n servers (s.turned i _)
    rw [← hx']
    have hshown := total_update (f := shown) (γ := s.listener) hi x'
    have hpassed := total_update (f := passed) (γ := s.listener) hi x'
    have hown : shown (s.listener i) ≤ total n shown s.listener := Async.le_total hi
    have hloop : passed (s.listener i) ≤ total n passed s.listener := Async.le_total hi
    have hcounter := h.counter
    have hbound := h.bound
    have hcount : x.stage = .passed → x.activeConnections + 1 < 2 ^ 64 := by
      intro hstage
      have hone : passed (s.listener i) = 1 := if_pos hstage
      show s.activeConnections + 1 < 2 ^ 64
      omega
    have hle : shown x ≤ x.activeConnections := by
      show shown (s.listener i) ≤ s.activeConnections
      omega
    have hactive : x.activeConnections < 2 ^ 64 := by
      show s.activeConnections < 2 ^ 64
      omega
    obtain ⟨hmoved, hcase⟩ := step_shown (servers i) x e hactive hcount hle hx'
    have hmoved : x'.activeConnections + shown (s.listener i) = s.activeConnections + shown x' := hmoved
    have hwilling : ∀ j < n, (Function.update s.listener i x' j).stage = .passed → 0 < (servers j).maxConnections := by
      intro j hj hstage
      by_cases hji : j = i
      · subst hji
        rw [Function.update_self] at hstage
        rcases hcase with ⟨-, hkept⟩ | ⟨hbelow, -⟩
        · exact h.willing j hj (hkept hstage)
        · exact Nat.zero_lt_of_lt hbelow
      · rw [Function.update_of_ne hji] at hstage
        exact h.willing j hj hstage
    refine ⟨?_, ?_, hwilling⟩
    · show x'.activeConnections = total n shown (Function.update s.listener i x')
      omega
    · show x'.activeConnections + total n passed (Function.update s.listener i x') ≤ room n servers
      rcases hcase with ⟨hless, -⟩ | ⟨hbelow, hsame⟩
      · have hless : x'.activeConnections + passed x' ≤ s.activeConnections + passed (s.listener i) := hless
        omega
      · -- the loop has just passed: the counter is below its limit
        have hlimit : (servers i).maxConnections ≤ limit n servers :=
          Finset.le_sup (f := fun i => (servers i).maxConnections) (Finset.mem_range.mpr hi)
        have hloops : total n passed (Function.update s.listener i x') ≤ (willing n servers).card := by
          unfold willing
          rw [Finset.card_filter]
          refine Finset.sum_le_sum fun j hj => ?_
          unfold passed
          split
          · next hstage => rw [if_pos (hwilling j (Finset.mem_range.mp hj) hstage)]
          · exact Nat.zero_le _
        have hsame : x'.activeConnections = s.activeConnections := hsame
        have hbelow : s.activeConnections < (servers i).maxConnections := hbelow
        unfold room
        omega
  · exact h

theorem run_within (hroom : room n servers < 2 ^ 64) {s : Process σ} (h : Within n servers s)
    (ls : List (Nat × Event)) : Within n servers (s.run n servers ls) := by
  induction ls generalizing s with
  | nil => exact h
  | cons l rest ih => exact ih (step_within hroom h l)

/-! ### As many -/

/-- The counter shows `a`, and of the loops those in `waiting` have passed, and all others accept. -/
structure Stands (s : Process σ) (a : Nat) (waiting : Finset Nat) : Prop where
  counter : s.activeConnections = a
  stage : ∀ i, (s.listener i).stage = if i ∈ waiting then .passed else .accepting

section
variable {s : Process σ} {a i : Nat} {waiting : Finset Nat} {x : Listener σ}

theorem stands_fresh (handler : Nat → σ) : Stands (fresh servers handler) 0 ∅ where
  counter := rfl
  stage _ := rfl

theorem turned_self : (s.turned i x).listener i = x := Function.update_self ..

theorem turned_other {j : Nat} (hj : j ≠ i) : (s.turned i x).listener j = s.listener j := Function.update_of_ne hj ..

theorem turned_turned (x' : Listener σ) : (s.turned i x).turned i x' = s.turned i x' := by
  rw [turned, turned, turned, Function.update_idem]

theorem Stands.passes (h : Stands s a waiting) (hx : x.stage = .passed) (ha : x.activeConnections = a) :
    Stands (s.turned i x) a (insert i waiting) where
  counter := ha
  stage j := by
    by_cases hj : j = i
    · rw [hj, if_pos (Finset.mem_insert_self ..), turned_self, hx]
    · rw [if_congr (Finset.mem_insert.trans (or_iff_right hj)) rfl rfl, turned_other hj, h.stage j]

theorem Stands.accepts (h : Stands s a waiting) (hx : x.stage = .accepting) :
    Stands (s.turned i x) x.activeConnections (waiting.erase i) where
  counter := rfl
  stage j := by
    by_cases hj : j = i
    · rw [hj, if_neg (Finset.notMem_erase i waiting), turned_self, hx]
    · rw [if_congr (Finset.mem_erase.trans (and_iff_right hj)) rfl rfl, turned_other hj, h.stage j]

/-- A loop that accepts a connection while the counter is below its limit waits to count it. -/
theorem Stands.accept (h : Stands s a waiting) (hi : i < n) (hout : i ∉ waiting)
    (hbelow : a < (servers i).maxConnections) : Stands (s.step n servers (i, .accept)) a (insert i waiting) := by
  have hstage : (s.listener i).stage = .accepting := by rw [h.stage, if_neg hout]
  have hnot : ¬ s.activeConnections ≥ (servers i).maxConnections := by
    rw [h.counter]
    omega
  simp only [step, if_pos hi, Listener.step, hstage, if_true, if_neg hnot]
  exact h.passes rfl h.counter

variable (servers) in
/-- A loop that waits counts its connection, whatever the counter shows. -/
theorem Stands.count (h : Stands s a waiting) (hi : i < n) (hin : i ∈ waiting) (ha : a + 1 < 2 ^ 64) :
    Stands (s.run n servers [(i, .count), (i, .spawn)]) (a + 1) (waiting.erase i) := by
  have hstage : (s.listener i).stage = .passed := by rw [h.stage, if_pos hin]
  have hadd : fetchAdd s.activeConnections 1 = a + 1 := by
    rw [h.counter]
    exact Nat.mod_eq_of_lt ha
  let counted : Listener σ := { s.listener i with activeConnections := a + 1, stage := .counted }
  let spawned : Listener σ := { counted with stage := .accepting, tasks := counted.tasks ++ [.running] }
  have hcount : s.step n servers (i, .count) = s.turned i counted := by
    simp only [step, if_pos hi, Listener.step, hstage, if_true, hadd]
    rfl
  have hspawn : (s.turned i counted).step n servers (i, .spawn) = s.turned i spawned := by
    simp only [step, if_pos hi, turned_self, turned_turned]
    rfl
  have hrun : s.run n servers [(i, .count), (i, .spawn)] = s.turned i spawned := by
    show (s.step n servers (i, .count)).step n servers (i, .spawn) = _
    rw [hcount, hspawn]
  rw [hrun]
  exact h.accepts rfl

end

section
variable {handler : Nat → σ}

/-- Any of the willing loops may be waiting, while nothing is counted. -/
theorem all_waiting (handler : Nat → σ) (waiting : Finset Nat) (hwaiting : waiting ⊆ willing n servers) :
    ∃ ls, Stands ((fresh servers handler).run n servers ls) 0 waiting := by
  induction waiting using Finset.induction_on with
  | empty => exact ⟨[], stands_fresh handler⟩
  | insert i waiting hout ih =>
    obtain ⟨ls, h⟩ := ih fun j hj => hwaiting (Finset.mem_insert_of_mem hj)
    obtain ⟨hi, hbelow⟩ := Finset.mem_filter.mp (hwaiting (Finset.mem_insert_self ..))
    refine ⟨ls ++ [(i, .accept)], ?_⟩
    rw [run, List.foldl_append]
    exact h.accept (Finset.mem_range.mp hi) hout hbelow

/-- One loop more counts as many connections as its limit allows. -/
theorem one_fills {waiting : Finset Nat} {ls : List (Nat × Event)} {i : Nat} (hi : i < n) (hout : i ∉ waiting)
    (h : Stands ((fresh servers handler).run n servers ls) 0 waiting) (m : Nat)
    (hm : m ≤ (servers i).maxConnections) (hmax : m < 2 ^ 64) :
    ∃ ls, Stands ((fresh servers handler).run n servers ls) m waiting := by
  induction m with
  | zero => exact ⟨ls, h⟩
  | succ m ih =>
    obtain ⟨ls, h⟩ := ih (by omega) (by omega)
    refine ⟨ls ++ [(i, .accept), (i, .count), (i, .spawn)], ?_⟩
    rw [run, List.foldl_append]
    have hcounted := (h.accept hi hout hm).count servers hi (Finset.mem_insert_self ..) hmax
    rwa [Finset.erase_insert hout] at hcounted

/-- Then the loops that wait count theirs. -/
theorem all_count {waiting : Finset Nat} (hwaiting : waiting ⊆ willing n servers) {ls : List (Nat × Event)} {a : Nat}
    (h : Stands ((fresh servers handler).run n servers ls) a waiting) (hmax : a + waiting.card < 2 ^ 64) :
    ∃ ls, ((fresh servers handler).run n servers ls).activeConnections = a + waiting.card := by
  induction waiting using Finset.induction_on generalizing ls a with
  | empty => exact ⟨ls, h.counter⟩
  | insert i waiting hout ih =>
    rw [Finset.card_insert_of_notMem hout] at hmax ⊢
    have hi := Finset.mem_range.mp (Finset.mem_filter.mp (hwaiting (Finset.mem_insert_self ..))).1
    have hcounted := h.count servers hi (Finset.mem_insert_self ..) (by omega)
    rw [Finset.erase_insert hout, run, run, ← List.foldl_append] at hcounted
    obtain ⟨ls', hls'⟩ := ih (fun j hj => hwaiting (Finset.mem_insert_of_mem hj)) hcounted (by omega)
    exact ⟨ls', by omega⟩

/-- **The servers of a process hold the largest limit of connections, and one more for each other server**, and never
more, in whatever order their accept loops and their connections move. -/
theorem active_greatest (handler : Nat → σ) (hroom : room n servers < 2 ^ 64) :
    IsGreatest {a | ∃ ls, ((fresh servers handler).run n servers ls).activeConnections = a} (room n servers) := by
  constructor
  · by_cases hwilling : (willing n servers).Nonempty
    · obtain ⟨j, hj⟩ := hwilling
      have hj' : j ∈ Finset.range n := (Finset.mem_filter.mp hj).1
      obtain ⟨i, hi, hlimit⟩ := Finset.exists_mem_eq_sup (Finset.range n) ⟨j, hj'⟩ fun i => (servers i).maxConnections
      have hpos : 0 < (servers i).maxConnections := by
        have hle : (servers j).maxConnections ≤ (servers i).maxConnections := by
          rw [← hlimit]
          exact Finset.le_sup (f := fun i => (servers i).maxConnections) hj'
        exact (Finset.mem_filter.mp hj).2.trans_le hle
      have hmem : i ∈ willing n servers := Finset.mem_filter.mpr ⟨hi, hpos⟩
      have hcard := Finset.card_erase_add_one hmem
      have hmost : room n servers = (servers i).maxConnections + ((willing n servers).erase i).card := by
        have hlimit : limit n servers = (servers i).maxConnections := hlimit
        unfold room
        omega
      obtain ⟨ls, h⟩ := all_waiting handler ((willing n servers).erase i) (Finset.erase_subset ..)
      obtain ⟨ls, h⟩ := one_fills (Finset.mem_range.mp hi) (Finset.notMem_erase i _) h (servers i).maxConnections
        (Nat.le_refl _) (by omega)
      obtain ⟨ls, h⟩ := all_count (Finset.erase_subset ..) h (by omega)
      exact ⟨ls, h.trans hmost.symm⟩
    · refine ⟨[], ?_⟩
      have hlimit : limit n servers = 0 := by
        refine Nat.le_zero.mp (Finset.sup_le fun i hi => ?_)
        by_contra hne
        exact hwilling ⟨i, Finset.mem_filter.mpr ⟨hi, by omega⟩⟩
      rw [room, hlimit, Finset.not_nonempty_iff_eq_empty.mp hwilling]
      rfl
  · rintro _ ⟨ls, rfl⟩
    have hbound := (run_within hroom (within_fresh handler) ls).bound
    omega

end

end Process

namespace Sample

/-- Two servers, for two connections and for three. -/
def pair (i : Nat) : Server Nat where
  site := site
  flush _ _ := none
  setup := setup
  panics := faulty
  maxConnections := i + 2

theorem active_greatest_pair : Process.room 2 pair = 4 ∧
    IsGreatest {a | ∃ ls, ((Process.fresh pair fun _ => 0).run 2 pair ls).activeConnections = a} (Process.room 2 pair) :=
  ⟨by decide, Process.active_greatest (fun _ => 0) (by decide)⟩

end Sample

end XProtocol.UdsServer
