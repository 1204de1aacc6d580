import XProtocol.Broadcast
import XProtocol.Threads

/-! Graceful shutdown.

Whoever waits for the shutdown shares one receiver with everybody else who does, and keeps
its lock while it waits. The channel has room for one message. So what a trigger sends
wakes one of them, and however often it is triggered, two at most are certain to wake
(`wakes_iff`). -/
namespace XProtocol
open Threads

variable {B : Broadcast Unit}

structure GracefulShutdown (B : Broadcast Unit) where
  /-- Between `shutdown_tx` and `shutdown_rx`. -/
  channel : B.Channel
  /-- The mutex of `shutdown_rx`. -/
  locked : Bool

namespace GracefulShutdown

def new (B : Broadcast Unit) : GracefulShutdown B where
  channel := B.channel 1
  locked := false

/-- Where a call is. -/
inductive Place where
  /-- In `wait`, before it has the lock. -/
  | waiting
  | receiving
  /-- In `wait`, before it gives the lock back. -/
  | received
  | woken
  /-- Before `trigger` sends. -/
  | triggering
  | triggered
deriving DecidableEq

def move (R : Broadcast.Receiving B) : Move (GracefulShutdown B) Place Unit
  | .waiting, _, s => if s.locked then none else some (.receiving, { s with locked := true }, [])
  -- what is received does not matter, nor whether it is an error
  | .receiving, _, s => (R.recv s.channel).map fun x => (.received, { s with channel := x.2 }, [])
  | .received, _, s => some (.woken, { s with locked := false }, [])
  | .triggering, _, s => some (.triggered, { s with channel := (B.send () s.channel).2 }, [])
  | .woken, _, _ => none
  | .triggered, _, _ => none

/-- So many calls of `wait` and of `trigger`, none of which has begun. -/
def calls (B : Broadcast Unit) (waits triggers : Nat) : State (GracefulShutdown B) Place :=
  ⟨new B, List.replicate waits .waiting ++ List.replicate triggers .triggering⟩

/-- Every trigger is over and the buffer is empty, and some call of `wait` is blocked. -/
structure Stranded (R : Broadcast.Receiving B) (s : State (GracefulShutdown B) Place) : Prop where
  triggered : Place.triggering ∉ s.places
  empty : B.pending s.world.channel = []
  blocked : ∃ t, (s.places[t]? = some .waiting ∨ s.places[t]? = some .receiving) ∧ s.step (move R) (t, ()) = none

/-! ### Who wakes -/

def Place.isWait : Place → Bool
  | .triggering => false
  | .triggered => false
  | _ => true

/-- The message has been received. -/
def Place.isServed : Place → Bool
  | .received => true
  | .woken => true
  | _ => false

def Place.isTriggered : Place → Bool
  | .triggered => true
  | _ => false

/-- The calls are so many waits and triggers, and of two messages none is lost. -/
structure Accounted (R : Broadcast.Receiving B) (waits triggers : Nat)
    (s : State (GracefulShutdown B) Place) : Prop where
  length : s.places.length = waits + triggers
  waits_eq : s.count Place.isWait = waits
  live : B.live s.world.channel = true
  capacity : B.capacity s.world.channel = 1
  served : min (s.count Place.isTriggered) 2 ≤ s.count Place.isServed + min (R.behind s.world.channel) 2

variable {R : Broadcast.Receiving B} {waits triggers : Nat} {s s' : State (GracefulShutdown B) Place}

theorem accounted_calls : Accounted R waits triggers (calls B waits triggers) where
  length := by simp [calls]
  waits_eq := by simp [State.count, calls, List.countP_replicate, Place.isWait]
  live := B.live_channel 1
  capacity := B.capacity_channel 1
  served := by simp [State.count, calls, List.countP_replicate, Place.isTriggered]

/-- A move sends, receives, or leaves the channel alone. -/
theorem move_spec {p p' : Place} {c : Unit} {w w' : GracefulShutdown B} {new : List Place}
    (hlive : B.live w.channel = true) (hcap : B.capacity w.channel = 1) (h : move R p c w = some (p', w', new)) :
    new = [] ∧ p'.isWait = p.isWait ∧ B.live w'.channel = true ∧ B.capacity w'.channel = 1 ∧
      (p'.isTriggered = p.isTriggered ∧
          p.isServed.toNat + min (R.behind w.channel) 2 ≤ p'.isServed.toNat + min (R.behind w'.channel) 2 ∨
        p'.isServed = p.isServed ∧ p'.isTriggered.toNat = p.isTriggered.toNat + 1 ∧
          R.behind w'.channel = R.behind w.channel + 1) := by
  cases p with
  | waiting =>
    obtain ⟨-, h⟩ := Option.ite_none_left_eq_some.mp h
    cases h
    exact ⟨rfl, rfl, hlive, hcap, .inl ⟨rfl, Nat.le_refl _⟩⟩
  | receiving =>
    obtain ⟨⟨r, c'⟩, hrecv, h⟩ := Option.map_eq_some_iff.mp h
    cases h
    obtain ⟨hpos, hbehind⟩ := R.behind_recv hrecv
    refine ⟨rfl, rfl, (R.live_recv _ _ _ hrecv).trans hlive, (R.capacity_recv _ _ _ hrecv).trans hcap,
      .inl ⟨rfl, ?_⟩⟩
    rw [hcap] at hbehind
    simp only [Place.isServed, Bool.toNat_true, Bool.toNat_false]
    omega
  | received =>
    cases h
    exact ⟨rfl, rfl, hlive, hcap, .inl ⟨rfl, Nat.le_refl _⟩⟩
  | triggering =>
    cases h
    exact ⟨rfl, rfl, (B.live_send ..).trans hlive, (B.capacity_send ..).trans hcap,
      .inr ⟨rfl, rfl, R.behind_send _ _ hlive⟩⟩
  | _ => cases h

theorem Accounted.step (h : Accounted R waits triggers s) {l : Nat × Unit} (hstep : s.step (move R) l = some s') :
    Accounted R waits triggers s' := by
  obtain ⟨t, c⟩ := l
  obtain ⟨p, p', w, new, hp, hmove, rfl⟩ := State.step_eq_some hstep
  obtain ⟨rfl, hwait, hlive, hcap, hserved⟩ := move_spec h.live h.capacity hmove
  have hwaits := s.count_moved_alone hp Place.isWait p' w
  have hserves := s.count_moved_alone hp Place.isServed p' w
  have htriggers := s.count_moved_alone hp Place.isTriggered p' w
  have hbefore := h.served
  exact
    { length := by rw [List.append_nil, List.length_set, h.length]
      waits_eq := by
        rw [hwait] at hwaits
        exact (Nat.add_right_cancel hwaits).trans h.waits_eq
      live := hlive
      capacity := hcap
      served := by
        rcases hserved with ⟨hsame, hle⟩ | ⟨hsame, hsent, hbehind⟩
        · rw [hsame] at htriggers
          dsimp only
          omega
        · rw [hsame] at hserves
          dsimp only
          omega }

theorem run_accounted {ls : List (Nat × Unit)} (hrun : (calls B waits triggers).run (move R) ls = some s) :
    Accounted R waits triggers s :=
  State.run_keeps (fun _ _ _ h hstep => h.step hstep) accounted_calls hrun

/-- **Two messages are enough for two calls**: nobody is left behind. -/
theorem Accounted.not_stranded (h : Accounted R waits triggers s) (hwaits : waits ≤ 2)
    (htriggers : waits ≤ triggers) :
    ¬Stranded R s := by
  rintro ⟨htriggered, hempty, t, hblocked, -⟩
  have hbehind : R.behind s.world.channel = 0 := by
    have hpending := R.length_pending s.world.channel
    rw [hempty, h.capacity, List.length_nil] at hpending
    omega
  have hserved := h.served
  -- all triggers have sent, and one wait at least has not received
  have hsent : s.count Place.isWait + s.count Place.isTriggered = s.places.length := by
    rw [List.length_eq_countP_add_countP Place.isWait]
    refine congrArg _ (List.countP_congr fun p hp => ?_)
    cases p with
    | triggering => exact absurd hp htriggered
    | _ => simp [Place.isWait, Place.isTriggered]
  -- were the blocked call awake, those that are served would still be waits
  have hleft : s.count Place.isServed + 1 ≤ s.count Place.isWait := by
    have hmono : State.count Place.isServed ⟨s.world, s.places.set t .woken ++ []⟩ ≤
        State.count Place.isWait ⟨s.world, s.places.set t .woken ++ []⟩ :=
      List.countP_mono_left fun p _ h => by cases p <;> first | rfl | cases h
    rcases hblocked with hp | hp
    all_goals
      have hserves := s.count_moved_alone hp Place.isServed .woken s.world
      have hwaits := s.count_moved_alone hp Place.isWait .woken s.world
      simp only [Place.isServed, Place.isWait, Bool.toNat_true, Bool.toNat_false] at hserves hwaits
      omega
  rw [hbehind] at hserved
  rw [h.length, h.waits_eq] at hsent
  rw [h.waits_eq] at hleft
  omega

/-! ### Who does not -/

theorem reaches_triggered (n : Nat) (before : List Place) {w : GracefulShutdown B}
    (hlive : B.live w.channel = true) (hcap : B.capacity w.channel = 1) :
    ∃ c, R.behind c = R.behind w.channel + n ∧ B.capacity c = 1 ∧
      State.Reaches (move R) ⟨w, before ++ List.replicate n .triggering⟩
        ⟨{ w with channel := c }, before ++ List.replicate n .triggered⟩ := by
  induction n generalizing before w with
  | zero => exact ⟨_, rfl, hcap, .refl _⟩
  | succ n ih =>
    have hsend : State.Reaches (move R) ⟨w, before ++ .triggering :: List.replicate n .triggering⟩
        ⟨{ w with channel := (B.send () w.channel).2 }, before ++ .triggered :: List.replicate n .triggering⟩ :=
      State.reaches_between (c := ()) rfl _ _
    obtain ⟨c, hbehind, hcap', hreach⟩ := ih (before ++ [.triggered])
      (w := { w with channel := (B.send () w.channel).2 })
      ((B.live_send ..).trans hlive) ((B.capacity_send ..).trans hcap)
    refine ⟨c, ?_, hcap', ?_⟩
    · rw [hbehind, R.behind_send _ _ hlive]
      omega
    · simp only [List.append_assoc, List.singleton_append] at hreach
      exact hsend.trans hreach

/-- A call of `wait` that finds the lock free and a message is over. -/
theorem reaches_woken (before after : List Place) {w : GracefulShutdown B} (hfree : w.locked = false)
    (hpos : 0 < R.behind w.channel) (hcap : B.capacity w.channel = 1) :
    ∃ c, R.behind c + 1 = min (R.behind w.channel) 2 ∧ B.capacity c = 1 ∧
      State.Reaches (move R) ⟨w, before ++ .waiting :: after⟩
        ⟨{ w with channel := c }, before ++ .woken :: after⟩ := by
  obtain ⟨channel, locked⟩ := w
  cases hfree
  cases hrecv : R.recv channel with
  | none => exact absurd ((R.recv_waits channel).mp hrecv) (Nat.ne_of_gt hpos)
  | some x =>
    obtain ⟨r, c⟩ := x
    obtain ⟨-, hbehind⟩ := R.behind_recv hrecv
    have htake : move R .receiving () ⟨channel, true⟩ = some (.received, ⟨c, true⟩, []) := by
      simp [move, hrecv]
    have hlock : move R .waiting () ⟨channel, false⟩ = some (.receiving, ⟨channel, true⟩, []) := rfl
    have hleave : move R .received () ⟨c, true⟩ = some (.woken, ⟨c, false⟩, []) := rfl
    rw [hcap] at hbehind
    exact ⟨c, hbehind, (R.capacity_recv _ _ _ hrecv).trans hcap, (State.reaches_between hlock before after).trans
      ((State.reaches_between htake before after).trans (State.reaches_between hleave before after))⟩

/-- As many calls as there are messages kept or missed, but two at most, take all of them. -/
theorem reaches_served (n : Nat) (before after : List Place) {w : GracefulShutdown B} (hfree : w.locked = false)
    (hn : min (R.behind w.channel) 2 = n) (hcap : B.capacity w.channel = 1) :
    ∃ c, R.behind c = 0 ∧ B.capacity c = 1 ∧
      State.Reaches (move R) ⟨w, before ++ List.replicate n .waiting ++ after⟩
        ⟨{ w with channel := c }, before ++ List.replicate n .woken ++ after⟩ := by
  induction n generalizing before w with
  | zero => exact ⟨_, by omega, hcap, .refl _⟩
  | succ n ih =>
    obtain ⟨c, hbehind, hcap', hfirst⟩ := reaches_woken (R := R) before (List.replicate n .waiting ++ after) hfree
      (by omega) hcap
    obtain ⟨c', hnone, hcap'', hrest⟩ := ih (before ++ [.woken]) (w := { w with channel := c }) hfree
      (by dsimp only; omega) hcap'
    refine ⟨c', hnone, hcap'', ?_⟩
    simp only [List.replicate_succ, List.append_assoc, List.cons_append, List.nil_append] at hfirst hrest ⊢
    exact hfirst.trans hrest

/-- **More calls than two are not certain to wake**, nor more than there are triggers: all triggers may send
before anybody receives. -/
theorem strands (hmany : min triggers 2 < waits) :
    ∃ ls s, (calls B waits triggers).run (move R) ls = some s ∧ Stranded R s := by
  obtain ⟨more, rfl⟩ := Nat.exists_eq_add_of_lt hmany
  have hcalls : calls B (min triggers 2 + more + 1) triggers =
      ⟨new B, List.replicate (min triggers 2) .waiting ++ .waiting :: List.replicate more .waiting ++
        List.replicate triggers .triggering⟩ := by
    rw [calls, Nat.add_assoc, ← List.replicate_append_replicate, List.replicate_succ]
  obtain ⟨c, hsum, hcap, hsent⟩ := reaches_triggered (R := R) triggers
    (List.replicate (min triggers 2) .waiting ++ .waiting :: List.replicate more .waiting) (w := new B)
    (B.live_channel 1) (B.capacity_channel 1)
  have hbehind : R.behind c = triggers := by
    rw [hsum, show R.behind (new B).channel = 0 from R.behind_channel 1, Nat.zero_add]
  obtain ⟨c', hnone, hcap', hserved⟩ := reaches_served (R := R) (min triggers 2) []
    (.waiting :: List.replicate more .waiting ++ List.replicate triggers .triggered) (w := ⟨c, false⟩) rfl
    (by rw [hbehind]) hcap
  have hlock : State.Reaches (move R)
      ⟨⟨c', false⟩, List.replicate (min triggers 2) .woken ++ .waiting ::
        (List.replicate more .waiting ++ List.replicate triggers .triggered)⟩
      ⟨⟨c', true⟩, List.replicate (min triggers 2) .woken ++ .receiving ::
        (List.replicate more .waiting ++ List.replicate triggers .triggered)⟩ :=
    State.reaches_between (c := ()) rfl _ _
  simp only [List.append_assoc, List.cons_append, List.nil_append] at hcalls hsent hserved
  obtain ⟨ls, hrun⟩ := (hsent.trans hserved).trans hlock
  refine ⟨ls, _, hcalls ▸ hrun, ?_, ?_, min triggers 2, .inr (by simp), ?_⟩
  · simp
  · have hpending := R.length_pending c'
    rw [hnone, Nat.zero_min] at hpending
    exact List.eq_nil_of_length_eq_zero hpending
  · simp [State.step, move, (R.recv_waits c').mpr hnone]

/-- **Every wait wakes, in every run, exactly if there are two at most, and a trigger for each.** -/
theorem wakes_iff (R : Broadcast.Receiving B) (waits more : Nat) :
    (∀ ls s, (calls B waits (more + 1)).run (move R) ls = some s → ¬Stranded R s) ↔
      waits ≤ 2 ∧ waits ≤ more + 1 := by
  constructor
  · intro h
    by_contra hmany
    have hfew : min (more + 1) 2 < waits := by omega
    obtain ⟨ls, s, hrun, hstranded⟩ := strands (R := R) hfew
    exact h ls s hrun hstranded
  · rintro ⟨htwo, hmore⟩ ls s hrun
    exact (run_accounted hrun).not_stranded htwo hmore

/-- Two calls wait and there is one trigger: the first one wakes, the second one waits for ever. -/
theorem second_stranded :
    ∃ s, (calls (.unread Unit) 2 1).run (move (Broadcast.receivingUnread Unit))
        [(0, ()), (2, ()), (0, ()), (0, ()), (1, ())] = some s ∧
      s.places = [.woken, .receiving, .triggered] ∧ Stranded (Broadcast.receivingUnread Unit) s :=
  ⟨_, rfl, rfl, by decide, rfl, 1, .inr rfl, rfl⟩

end GracefulShutdown

end XProtocol
