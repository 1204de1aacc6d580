import Mathlib.Data.List.AList
import XProtocol.Metrics.Percentiles
import XProtocol.Threads

/-! The metrics of services that many threads ask for.

The services are behind a read-write lock. Whoever does not find one under the read guard gives
it back, and looks again under the write guard before he puts a new object there. Between the two somebody else
may have put one there. An object that is there stays (`Grows`), so that there is one for
each name, and every snapshot is of it (`never_splits`). -/
namespace XProtocol.MetricsCollector
open Threads ServiceMetrics

/-- What the threads share. An `Arc` is the number of its object. -/
structure Shared where
  services : AList fun _ : String => Nat
  metrics : List ServiceMetrics
  /-- How many have a read guard. -/
  readers : Nat
  /-- Somebody has the write guard. -/
  writer : Bool
  /-- What has been called of which object, in this order. -/
  log : List (Nat × Call)

inductive Place where
  /-- In `get_or_create_service`, before `services.read()`; then come these calls on what it returns. -/
  | reading (name : String) (calls : List Call)
  | looking (name : String) (calls : List Call)
  /-- Before the read guard is given back. -/
  | looked (name : String) (calls : List Call) (found : Option Nat)
  /-- Before `services.write()`. -/
  | writing (name : String) (calls : List Call)
  | relooking (name : String) (calls : List Call)
  | inserting (name : String) (calls : List Call)
  /-- Before the write guard is given back. -/
  | unlocking (name : String) (h : Nat) (calls : List Call)
  /-- It has returned. -/
  | holding (name : String) (h : Nat) (calls : List Call)
  /-- Before `snapshot_all`. -/
  | snapshotting
  | iterating (todo : List (String × Nat)) (taken : List (String × RequestMetrics))
  | snapped (taken : List (String × RequestMetrics))

/-- One operation. The environment chooses which service an iteration comes to next. -/
def move : Move Shared Place Nat
  | .reading name calls, _, w =>
    if w.writer then none else some (.looking name calls, { w with readers := w.readers + 1 }, [])
  | .looking name calls, _, w => some (.looked name calls (w.services.lookup name), w, [])
  | .looked name calls found, _, w =>
    some (found.elim (.writing name calls) (.holding name · calls), { w with readers := w.readers - 1 }, [])
  | .writing name calls, _, w =>
    if w.writer ∨ w.readers ≠ 0 then none else some (.relooking name calls, { w with writer := true }, [])
  | .relooking name calls, _, w =>
    some ((w.services.lookup name).elim (.inserting name calls) (.unlocking name · calls), w, [])
  | .inserting name calls, _, w =>
    let h := w.metrics.length
    some (.unlocking name h calls,
      { w with services := w.services.insert name h, metrics := w.metrics ++ [ServiceMetrics.new] }, [])
  | .unlocking name h calls, _, w => some (.holding name h calls, { w with writer := false }, [])
  | .holding name h (call :: rest), _, w =>
    some (.holding name h rest,
      { w with metrics := w.metrics.modify h (·.perform call), log := w.log ++ [(h, call)] }, [])
  | .holding _ _ [], _, _ => none
  | .snapshotting, _, w =>
    if w.writer then none
    else some (.iterating (w.services.entries.map fun e => (e.1, e.2)) [], { w with readers := w.readers + 1 }, [])
  | .iterating [] taken, _, w => some (.snapped taken, { w with readers := w.readers - 1 }, [])
  | .iterating todo taken, i, w =>
    todo[i]?.bind fun e => w.metrics[e.2]?.map fun m =>
      (.iterating (todo.eraseIdx i) ((e.1, m.snapshot) :: taken), w, [])
  | .snapped _, _, _ => none

inductive Job where
  /-- `get_or_create_service(name)`, and these calls on the object. -/
  | service (name : String) (calls : List Call)
  | snapshotAll

def Job.place : Job → Place
  | .service name calls => .reading name calls
  | .snapshotAll => .snapshotting

/-- A new collector, and jobs that nobody has begun. -/
def start (jobs : List Job) : State Shared Place := ⟨⟨∅, [], 0, false, []⟩, jobs.map Job.place⟩

/-- Thread `t` has been given this object for the name. -/
def Holds (s : State Shared Place) (t : Nat) (name : String) (h : Nat) : Prop :=
  ∃ calls, s.places[t]? = some (.holding name h calls)

/-- The calls on one object. -/
def callsOn (h : Nat) (log : List (Nat × Call)) : List Call :=
  log.filterMap fun e => if e.1 = h then some e.2 else none

/-! ### What stays -/

/-- No entry is replaced, and nothing that was called is forgotten. -/
structure Grows (w w' : Shared) : Prop where
  entries : ∀ name h, w.services.lookup name = some h → w'.services.lookup name = some h
  log : w.log <+: w'.log

theorem Grows.refl (w : Shared) : Grows w w := ⟨fun _ _ h => h, List.prefix_refl _⟩

theorem Grows.trans {w w' w'' : Shared} (h : Grows w w') (h' : Grows w' w'') : Grows w w'' :=
  ⟨fun name k hk => h'.entries name k (h.entries name k hk), h.log.trans h'.log⟩

/-- What a thread knows where it is. -/
def Fact (w : Shared) : Place → Prop
  | .looked name _ (some h) => w.services.lookup name = some h
  | .inserting name _ => w.services.lookup name = none
  | .unlocking name h _ => w.services.lookup name = some h
  | .holding name h _ => w.services.lookup name = some h
  | .iterating todo _ => ∀ e ∈ todo, w.services.lookup e.1 = some e.2
  | _ => True

/-- The thread has the write guard. -/
def Place.writes : Place → Bool
  | .relooking .. => true
  | .inserting .. => true
  | .unlocking .. => true
  | _ => false

/-- Every entry has an object of its own, and every object is what the calls on it have made of it. -/
structure Consistent (w : Shared) : Prop where
  own : ∀ name name' h, w.services.lookup name = some h → w.services.lookup name' = some h → name = name'
  exists_object : ∀ name h, w.services.lookup name = some h → h < w.metrics.length
  called : ∀ e ∈ w.log, e.1 < w.metrics.length
  object_eq : ∀ h m, w.metrics[h]? = some m → m = after (callsOn h w.log)

/-- One thread at most has the write guard, and every thread knows what is the case. -/
structure Guarded (s : State Shared Place) : Prop where
  consistent : Consistent s.world
  writers : s.count Place.writes = s.world.writer.toNat
  fact : ∀ (t : Nat) p, s.places[t]? = some p → Fact s.world p

variable {w w' : Shared} {s s' : State Shared Place}

/-- What a thread knows stays so unless somebody else puts an object there. -/
theorem Fact.grow {q : Place} (h : Fact w q) (hgrows : Grows w w')
    (hinsert : ∀ name calls, q = .inserting name calls → w'.services = w.services) : Fact w' q := by
  cases q with
  | looked name calls found =>
    cases found with
    | none => trivial
    | some k => exact hgrows.entries _ _ h
  | inserting name calls => exact (congrArg (AList.lookup name) (hinsert name calls rfl)).trans h
  | unlocking name k calls => exact hgrows.entries _ _ h
  | holding name k calls => exact hgrows.entries _ _ h
  | iterating todo taken => exact fun e he => hgrows.entries _ _ (h e he)
  | _ => trivial

theorem callsOn_snoc (h k : Nat) (log : List (Nat × Call)) (call : Call) :
    callsOn h (log ++ [(k, call)]) = callsOn h log ++ if k = h then [call] else [] := by
  by_cases hk : k = h <;> simp [callsOn, hk]

/-- Guards are given and taken without a change. -/
theorem Consistent.guards (hw : Consistent w) (readers : Nat) (writer : Bool) :
    Consistent { w with readers, writer } := ⟨hw.own, hw.exists_object, hw.called, hw.object_eq⟩

theorem Grows.guards (w : Shared) (readers : Nat) (writer : Bool) : Grows w { w with readers, writer } :=
  ⟨fun _ _ h => h, List.prefix_refl _⟩

theorem lookup_insert {name name' : String} {k h : Nat}
    (hlookup : (w.services.insert name k).lookup name' = some h) :
    name' = name ∧ h = k ∨ name' ≠ name ∧ w.services.lookup name' = some h := by
  by_cases heq : name' = name
  · subst heq
    rw [AList.lookup_insert] at hlookup
    exact .inl ⟨rfl, (Option.some.inj hlookup).symm⟩
  · rw [AList.lookup_insert_ne heq] at hlookup
    exact .inr ⟨heq, hlookup⟩

/-- A new object for a name. -/
theorem Consistent.insert (hw : Consistent w) (name : String) :
    Consistent { w with
      services := w.services.insert name w.metrics.length
      metrics := w.metrics ++ [ServiceMetrics.new] } where
  own n n' h hn hn' := by
    rcases lookup_insert hn with ⟨hname, hh⟩ | ⟨-, hold⟩ <;>
      rcases lookup_insert hn' with ⟨hname', hh'⟩ | ⟨-, hold'⟩
    · exact hname.trans hname'.symm
    · exact absurd (hh ▸ hw.exists_object n' h hold') (Nat.lt_irrefl _)
    · exact absurd (hh' ▸ hw.exists_object n h hold) (Nat.lt_irrefl _)
    · exact hw.own n n' h hold hold'
  exists_object n h hn := by
    rw [List.length_append, List.length_singleton]
    rcases lookup_insert hn with ⟨-, rfl⟩ | ⟨-, hn⟩
    · exact Nat.lt_succ_self _
    · exact Nat.lt_succ_of_lt (hw.exists_object n h hn)
  called e he := by
    rw [List.length_append, List.length_singleton]
    exact Nat.lt_succ_of_lt (hw.called e he)
  object_eq h m hm := by
    by_cases hlt : h < w.metrics.length
    · rw [List.getElem?_append_left hlt] at hm
      exact hw.object_eq h m hm
    · -- nothing has been called of the new object
      obtain ⟨hzero, rfl⟩ : h - w.metrics.length = 0 ∧ ServiceMetrics.new = m := by
        rw [List.getElem?_append_right (Nat.le_of_not_lt hlt)] at hm
        simpa [List.getElem?_singleton] using hm
      have hnone : callsOn h w.log = [] := by
        refine List.filterMap_eq_nil_iff.mpr fun e he => if_neg fun heq => ?_
        exact absurd (heq ▸ hw.called e he) hlt
      rw [hnone]
      rfl

/-- A call on an object. -/
theorem Consistent.call (hw : Consistent w) {h : Nat} (hlt : h < w.metrics.length) (call : Call) :
    Consistent { w with metrics := w.metrics.modify h (·.perform call), log := w.log ++ [(h, call)] } where
  own := hw.own
  exists_object n k hn := by
    rw [List.length_modify]
    exact hw.exists_object n k hn
  called e he := by
    rw [List.length_modify]
    rcases List.mem_append.mp he with he | he
    · exact hw.called e he
    · cases List.mem_singleton.mp he
      exact hlt
  object_eq k m hm := by
    rw [List.getElem?_modify] at hm
    obtain ⟨m₀, hm₀, rfl⟩ := Option.map_eq_some_iff.mp hm
    rw [callsOn_snoc, hw.object_eq k m₀ hm₀]
    by_cases hk : h = k
    · rw [if_pos hk, if_pos hk]
      exact (after_snoc _ call).symm
    · rw [if_neg hk, if_neg hk, List.append_nil]

/-- A move only adds to the services and to the log, and only under the write guard to the services. -/
theorem move_spec {p p' : Place} {i : Nat} {new : List Place} (hw : Consistent w) (hp : Fact w p)
    (hwriter : p.writes = true → w.writer = true) (h : move p i w = some (p', w', new)) :
    new = [] ∧ Grows w w' ∧ Consistent w' ∧ Fact w' p' ∧
      p'.writes.toNat + w.writer.toNat = p.writes.toNat + w'.writer.toNat ∧
      (w'.services = w.services ∨ p.writes = true) := by
  cases p with
  | reading name calls =>
    obtain ⟨-, h⟩ := Option.ite_none_left_eq_some.mp h
    cases h
    exact ⟨rfl, .guards w _ _, hw.guards _ _, trivial, rfl, .inl rfl⟩
  | looking name calls =>
    cases h
    refine ⟨rfl, .refl w, hw, ?_, rfl, .inl rfl⟩
    cases hlookup : w.services.lookup name with
    | none => trivial
    | some k => exact hlookup
  | looked name calls found =>
    cases h
    cases found with
    | none => exact ⟨rfl, .guards w _ _, hw.guards _ _, trivial, rfl, .inl rfl⟩
    | some k => exact ⟨rfl, .guards w _ _, hw.guards _ _, hp, rfl, .inl rfl⟩
  | writing name calls =>
    obtain ⟨hfree, h⟩ := Option.ite_none_left_eq_some.mp h
    cases h
    have hwriter : w.writer = false := Bool.eq_false_iff.mpr fun h => hfree (.inl h)
    refine ⟨rfl, .guards w _ _, hw.guards _ _, trivial, ?_, .inl rfl⟩
    rw [hwriter]
    rfl
  | relooking name calls =>
    cases h
    cases hlookup : w.services.lookup name with
    | none => exact ⟨rfl, .refl w, hw, hlookup, rfl, .inl rfl⟩
    | some k => exact ⟨rfl, .refl w, hw, hlookup, rfl, .inl rfl⟩
  | inserting name calls =>
    cases h
    refine ⟨rfl, ⟨fun n k hn => ?_, List.prefix_refl _⟩, hw.insert name, AList.lookup_insert _, rfl, .inr rfl⟩
    have hother : n ≠ name := by
      rintro rfl
      exact nomatch hp.symm.trans hn
    exact (AList.lookup_insert_ne hother).trans hn
  | unlocking name k calls =>
    cases h
    refine ⟨rfl, .guards w _ _, hw.guards _ _, hp, ?_, .inl rfl⟩
    rw [hwriter rfl]
    rfl
  | holding name k calls =>
    cases calls with
    | nil => cases h
    | cons call rest =>
      cases h
      exact ⟨rfl, ⟨fun _ _ h => h, List.prefix_append _ _⟩, hw.call (hw.exists_object name k hp) call,
        hp, rfl, .inl rfl⟩
  | snapshotting =>
    obtain ⟨-, h⟩ := Option.ite_none_left_eq_some.mp h
    cases h
    refine ⟨rfl, .guards w _ _, hw.guards _ _, List.forall_mem_map.mpr fun e he => ?_, rfl, .inl rfl⟩
    exact AList.mem_lookup_iff.mpr he
  | iterating todo taken =>
    cases todo with
    | nil =>
      cases h
      exact ⟨rfl, .guards w _ _, hw.guards _ _, trivial, rfl, .inl rfl⟩
    | cons first rest =>
      obtain ⟨e, he, h⟩ := Option.bind_eq_some_iff.mp h
      obtain ⟨m, hm, h⟩ := Option.map_eq_some_iff.mp h
      cases h
      exact ⟨rfl, .refl w, hw, fun e' he' => hp e' (List.mem_of_mem_eraseIdx he'), rfl, .inl rfl⟩
  | snapped taken => cases h

theorem Guarded.step (hs : Guarded s) {l : Nat × Nat} (hstep : s.step move l = some s') :
    Guarded s' ∧ Grows s.world s'.world := by
  obtain ⟨t, i⟩ := l
  obtain ⟨p, p', w, new, hp, hmove, rfl⟩ := State.step_eq_some hstep
  have hwriter (h : p.writes = true) : s.world.writer = true := by
    have hpos : 0 < s.count Place.writes := List.countP_pos_iff.mpr ⟨p, List.mem_of_getElem? hp, h⟩
    cases hflag : s.world.writer with
    | true => rfl
    | false =>
      rw [hs.writers, hflag] at hpos
      exact absurd hpos (Nat.lt_irrefl 0)
  obtain ⟨rfl, hgrows, hw, hfact, hguard, hservices⟩ := move_spec hs.consistent (hs.fact t p hp) hwriter hmove
  have hlt : t < s.places.length := (List.getElem?_eq_some_iff.mp hp).1
  have hcount := s.count_moved_alone hp Place.writes p' w
  have hwriters := hs.writers
  have hle : s.world.writer.toNat ≤ 1 := Bool.toNat_le _
  refine ⟨⟨hw, by dsimp only; omega, fun u q hq => ?_⟩, hgrows⟩
  rw [List.append_nil] at hq
  by_cases hut : u = t
  · subst hut
    rw [List.getElem?_set_self hlt] at hq
    cases hq
    exact hfact
  · rw [List.getElem?_set_ne (Ne.symm hut)] at hq
    refine (hs.fact u q hq).grow hgrows fun name calls hinserting => hservices.resolve_right fun hwrites => ?_
    -- two threads would have the write guard
    have htwo := State.two_le_count hp hq (Ne.symm hut) hwrites (hinserting ▸ rfl)
    omega

theorem guarded_start (jobs : List Job) : Guarded (start jobs) where
  consistent :=
    { own := fun _ _ _ h => nomatch h
      exists_object := fun _ _ h => nomatch h
      called := fun _ h => nomatch h
      object_eq := fun _ _ h => nomatch h }
  writers := by
    refine List.countP_eq_zero.mpr (List.forall_mem_map.mpr fun job _ => ?_)
    cases job <;> simp [Job.place, Place.writes]
  fact t p hp := by
    obtain ⟨job, -, rfl⟩ := List.mem_map.mp (List.mem_of_getElem? hp)
    cases job <;> trivial

theorem run_guarded {jobs : List Job} {ls : List (Nat × Nat)}
    (hrun : (start jobs).run move ls = some s) : Guarded s :=
  State.run_keeps (fun _ _ _ h hstep => (h.step hstep).1) (guarded_start jobs) hrun

theorem run_grows {ls : List (Nat × Nat)} (hs : Guarded s) (hrun : s.run move ls = some s') :
    Guarded s' ∧ Grows s.world s'.world :=
  State.run_keeps (I := fun m => Guarded m ∧ Grows s.world m.world)
    (fun _ _ _ h hstep => ⟨(h.1.step hstep).1, h.2.trans (h.1.step hstep).2⟩) ⟨hs, .refl _⟩ hrun

theorem Guarded.holds (hs : Guarded s) {t : Nat} {name : String} {h : Nat} (ht : Holds s t name h) :
    s.world.services.lookup name = some h := by
  obtain ⟨calls, ht⟩ := ht
  exact hs.fact t _ ht

/-! ### What a snapshot shows -/

/-- The service is in the snapshot with what had been called of its object somewhere between the two. -/
def Reflects (w w' : Shared) (taken : List (String × RequestMetrics)) (name : String) (h : Nat) : Prop :=
  ∃ log, w.log <+: log ∧ log <+: w'.log ∧ taken.lookup name = some (after (callsOn h log)).snapshot

/-- How far a `snapshot_all` is that had not begun at `w`. -/
def Taking (w w' : Shared) : Place → Prop
  | .snapshotting => True
  | .iterating todo taken =>
    ∀ name h, w.services.lookup name = some h → (name, h) ∈ todo ∨ Reflects w w' taken name h
  | .snapped taken => ∀ name h, w.services.lookup name = some h → Reflects w w' taken name h
  | _ => False

theorem Reflects.grow {w'' : Shared} {taken : List (String × RequestMetrics)} {name : String} {h : Nat}
    (hreflects : Reflects w w' taken name h) (hgrows : Grows w' w'') : Reflects w w'' taken name h := by
  obtain ⟨log, hbefore, hafter, htaken⟩ := hreflects
  exact ⟨log, hbefore, hafter.trans hgrows.log, htaken⟩

theorem Taking.grow {w'' : Shared} {p : Place} (h : Taking w w' p) (hgrows : Grows w' w'') : Taking w w'' p := by
  cases p with
  | snapshotting => trivial
  | iterating todo taken => exact fun name k hk => (h name k hk).imp_right fun h => h.grow hgrows
  | snapped taken => exact fun name k hk => (h name k hk).grow hgrows
  | _ => exact h

/-- A snapshot that goes on loses no service. -/
theorem move_taking {w'' : Shared} {p p' : Place} {i : Nat} {new : List Place} (hgrows : Grows w w')
    (hw : Consistent w') (hp : Fact w' p) (h : Taking w w' p) (hmove : move p i w' = some (p', w'', new)) :
    Taking w w'' p' := by
  cases p with
  | snapshotting =>
    obtain ⟨-, hmove⟩ := Option.ite_none_left_eq_some.mp hmove
    cases hmove
    refine fun name k hk => .inl (List.mem_map.mpr ⟨⟨name, k⟩, ?_, rfl⟩)
    exact AList.mem_lookup_iff.mp (hgrows.entries name k hk)
  | iterating todo taken =>
    cases todo with
    | nil =>
      cases hmove
      exact fun name k hk => (h name k hk).resolve_left (List.not_mem_nil)
    | cons first rest =>
      obtain ⟨e, he, hmove⟩ := Option.bind_eq_some_iff.mp hmove
      obtain ⟨m, hm, hmove⟩ := Option.map_eq_some_iff.mp hmove
      cases hmove
      intro name k hk
      have hnow : Reflects w w' ((e.1, m.snapshot) :: taken) e.1 e.2 := by
        refine ⟨w'.log, hgrows.log, List.prefix_refl _, ?_⟩
        rw [List.lookup_cons_self, hw.object_eq e.2 m hm]
      by_cases hname : e.1 = name
      · -- the service is the one that it has come to
        obtain rfl : e.2 = k := by
          have hlookup := hp e (List.mem_of_getElem? he)
          rw [hname, hgrows.entries name k hk] at hlookup
          exact (Option.some.inj hlookup).symm
        exact .inr (hname ▸ hnow)
      · rcases h name k hk with htodo | ⟨log, hbefore, hafter, htaken⟩
        · obtain ⟨j, hj⟩ := List.mem_iff_getElem?.mp htodo
          refine .inl (List.mem_eraseIdx_iff_getElem?.mpr ⟨j, ?_, hj⟩)
          rintro rfl
          exact hname (congrArg Prod.fst (Option.some.inj (he.symm.trans hj)))
        · refine .inr ⟨log, hbefore, hafter, ?_⟩
          rw [List.lookup_cons, beq_false_of_ne (Ne.symm hname)]
          exact htaken
  | snapped taken => cases hmove
  | _ => exact h.elim

/-- What the threads share, as a collector. -/
def Shared.collector (w : Shared) : MetricsCollector :=
  ⟨w.services.entries.map fun e => (e.1, w.metrics[e.2]?.getD ServiceMetrics.new)⟩

theorem iterating_alone (todo : List (String × Nat)) (taken : List (String × RequestMetrics))
    (htodo : ∀ e ∈ todo, e.2 < w.metrics.length) (front back : List Place) :
    State.Reaches move ⟨w, front ++ .iterating todo taken :: back⟩
      ⟨{ w with readers := w.readers - 1 },
        front ++
          .snapped ((todo.map fun e => (e.1, (w.metrics[e.2]?.getD ServiceMetrics.new).snapshot)).reverse ++ taken) ::
          back⟩ := by
  induction todo generalizing taken with
  | nil => exact State.reaches_between (c := 0) rfl front back
  | cons e rest ih =>
    obtain ⟨m, hobject⟩ : ∃ m, w.metrics[e.2]? = some m :=
      ⟨_, List.getElem?_eq_getElem (htodo e (List.mem_cons_self ..))⟩
    have hmove : move (.iterating (e :: rest) taken) 0 w =
        some (.iterating rest ((e.1, (w.metrics[e.2]?.getD ServiceMetrics.new).snapshot) :: taken), w, []) := by
      simp [move, hobject]
    have hrest := ih ((e.1, (w.metrics[e.2]?.getD ServiceMetrics.new).snapshot) :: taken)
      fun e' he' => htodo e' (List.mem_cons_of_mem _ he')
    rw [List.map_cons, List.reverse_cons, List.append_assoc, List.singleton_append]
    exact (State.reaches_between hmove front back).trans hrest

/-- **A snapshot that nobody interrupts is the one of the collector.** -/
theorem snapshot_alone (hw : Consistent w) (hfree : w.writer = false) (front back : List Place) :
    State.Reaches move ⟨w, front ++ .snapshotting :: back⟩
      ⟨w, front ++ .snapped w.collector.snapshotAll.reverse :: back⟩ := by
  have hread : move .snapshotting 0 w = some (.iterating (w.services.entries.map fun e => (e.1, e.2)) [],
      { w with readers := w.readers + 1 }, []) := by
    rw [move, hfree]
    rfl
  refine (State.reaches_between hread front back).trans ?_
  have htodo : ∀ e ∈ w.services.entries.map fun e => (e.1, e.2), e.2 < w.metrics.length :=
    List.forall_mem_map.mpr fun e he => hw.exists_object e.1 e.2 (AList.mem_lookup_iff.mpr he)
  have h := iterating_alone (w := { w with readers := w.readers + 1 }) _ [] htodo front back
  simpa [Shared.collector, snapshotAll, Function.comp_def] using h

/-- In a run that goes on from where it had not begun, a `snapshot_all` loses no service. -/
theorem run_taking {t : Nat} {ls : List (Nat × Nat)} (hs : Guarded s) (ht : s.places[t]? = some .snapshotting)
    (hrun : s.run move ls = some s') : ∃ p, s'.places[t]? = some p ∧ Taking s.world s'.world p := by
  refine (State.run_keeps (I := fun m => Guarded m ∧ Grows s.world m.world ∧
    ∃ p, m.places[t]? = some p ∧ Taking s.world m.world p) ?_ ⟨hs, .refl _, _, ht, trivial⟩ hrun).2.2
  rintro m ⟨u, i⟩ m' ⟨hm, hgrows, p, hp, htaking⟩ hstep
  obtain ⟨hm', hgrows'⟩ := hm.step hstep
  refine ⟨hm', hgrows.trans hgrows', ?_⟩
  obtain ⟨q, q', w, new, hq, hmove, rfl⟩ := State.step_eq_some hstep
  by_cases htu : t = u
  · subst htu
    cases hq.symm.trans hp
    exact ⟨q', State.moved_self hq q' new, move_taking hgrows hm.consistent (hm.fact t p hp) htaking hmove⟩
  · exact ⟨p, State.moved_other hp htu q' new, htaking.grow hgrows'⟩

/-- **Services are never split, and snapshots lose no call.** Whatever interleaves: what has been returned for
two names is the same object exactly if the names are the same, and stays the one that the name has; and a
snapshot that begins later shows every call that had been made of the object. -/
theorem never_splits {jobs : List Job} {ls ls' : List (Nat × Nat)} (hrun : (start jobs).run move ls = some s)
    (hlater : s.run move ls' = some s') :
    (∀ t t' name name' h h', Holds s t name h → Holds s' t' name' h' → (name = name' ↔ h = h')) ∧
      (∀ t name h, Holds s t name h → s'.world.services.lookup name = some h) ∧
      ∀ (t : Nat) u name h taken, s.places[t]? = some .snapshotting → s'.places[t]? = some (.snapped taken) →
        Holds s u name h → Reflects s.world s'.world taken name h := by
  have hs := run_guarded hrun
  obtain ⟨hs', hgrows⟩ := run_grows hs hlater
  have hstays (t name h) (ht : Holds s t name h) : s'.world.services.lookup name = some h :=
    hgrows.entries name h (hs.holds ht)
  refine ⟨fun t t' name name' h h' ht ht' => ⟨?_, ?_⟩, hstays, fun t u name h taken ht htaken hu => ?_⟩
  · rintro rfl
    exact Option.some.inj ((hstays t name h ht).symm.trans (hs'.holds ht'))
  · rintro rfl
    exact hs'.consistent.own name name' h (hstays t name h ht) (hs'.holds ht')
  · obtain ⟨p, hp, htaking⟩ := run_taking hs ht hlater
    cases htaken.symm.trans hp
    exact htaking name h (hs.holds hu)

/-- Two threads have both found no object, one of them has put one there and made a call. -/
def raced : State Shared Place where
  world := ⟨(∅ : AList fun _ : String => Nat).insert "a" 0, [ServiceMetrics.new.requestStart], 0, false,
    [(0, .requestStart)]⟩
  places := [.holding "a" 0 [], .holding "a" 0 [], .snapshotting]

/-- Both have the same object, and a snapshot shows the call. -/
theorem never_splits_raced :
    (start [.service "a" [.requestStart], .service "a" [], .snapshotAll]).run move
        ([0, 0, 0, 1, 1, 1, 0, 0, 0, 0, 1, 1, 1, 0].map (·, 0)) = some raced ∧
      ∃ s taken, raced.run move [(2, 0), (2, 0), (2, 0)] = some s ∧ s.places[2]? = some (.snapped taken) ∧
        ("a" = "a" ↔ 0 = 0) ∧ s.world.services.lookup "a" = some 0 ∧ Reflects raced.world s.world taken "a" 0 := by
  have hrun : (start [.service "a" [.requestStart], .service "a" [], .snapshotAll]).run move
      ([0, 0, 0, 1, 1, 1, 0, 0, 0, 0, 1, 1, 1, 0].map (·, 0)) = some raced := rfl
  have hlater : raced.run move [(2, 0), (2, 0), (2, 0)] = some ⟨raced.world, [.holding "a" 0 [], .holding "a" 0 [],
      .snapped [("a", ServiceMetrics.new.requestStart.snapshot)]]⟩ := rfl
  obtain ⟨hsame, hstays, hreflects⟩ := never_splits hrun hlater
  exact ⟨hrun, _, _, hlater, rfl, hsame 0 1 "a" "a" 0 0 ⟨[], rfl⟩ ⟨[], rfl⟩, hstays 0 "a" 0 ⟨[], rfl⟩,
    hreflects 2 0 "a" 0 _ rfl rfl ⟨[], rfl⟩⟩

end XProtocol.MetricsCollector
