import XProtocol.Session

/-! When sessions are removed for being idle.

What `cleanup_idle` leaves is what the chronicle of the manager says (`cleanup_exact`): a session
that was created, and since then neither removed nor found idle by a cleanup. A session that nobody
has cleaned up yet is another matter. `get_session` does not look at how long it has been idle,
and touches it, so that it comes back to life: when the cleanups run decides what the clients
get, unless no client asks for a session that late (`steadfast_iff`). -/
namespace XProtocol.SessionManager
open Chronicle

/-- The session that is created. -/
def Query.creates : Query → Option String
  | .create id .. => some id
  | _ => none

/-- The one session that a query names. -/
def Query.names : Query → Option String
  | .create id .. | .get id | .remove id => some id
  | .cleanup => none

abbrev Log := List (Entry Query Answer)

/-! ### What the chronicle says -/

def Created (log : Log) (id : String) : Prop := ∃ e ∈ log, e.query.creates = some id

/-- A session is created, or there is one to get. -/
def Activates (id : String) (e : Entry Query Answer) : Bool :=
  match e.query, e.answer with
  | .create j _ _, _ => j = id
  | .get j, .got (some _) => j = id
  | _, _ => false

/-- The last create or successful get. -/
def lastActive (log : Log) (id : String) : Option Nat := (log.reverse.find? (Activates id)).map Entry.time

/-- The session is not removed, nor cleaned up for being idle. -/
def Leaves (maxIdleTime : Nat) (id : String) (earlier : Log) (e : Entry Query Answer) : Prop :=
  e.query ≠ .remove id ∧ (e.query = .cleanup → ∀ s, lastActive earlier id = some s → e.time - s < maxIdleTime)

/-- The session was created, and everything since then has left it. -/
def Held (maxIdleTime : Nat) (log : Log) (id : String) : Prop :=
  Created log id ∧
    ∀ earlier e rest, log = earlier ++ e :: rest → Created earlier id → Leaves maxIdleTime id earlier e

section
variable {maxIdleTime : Nat} {log : Log} {e : Entry Query Answer} {id : String}

theorem created_snoc : Created (log ++ [e]) id ↔ Created log id ∨ e.query.creates = some id := by
  unfold Created
  simp only [List.mem_append, List.mem_singleton, or_and_right, exists_or, exists_eq_left]

theorem lastActive_snoc (log : Log) (e : Entry Query Answer) (id : String) :
    lastActive (log ++ [e]) id = if Activates id e then some e.time else lastActive log id := by
  unfold lastActive
  rw [List.reverse_append, List.reverse_singleton, List.singleton_append, List.find?_cons]
  cases Activates id e <;> rfl

/-- What has not been created is not held before it is. -/
theorem held_new (hnew : ¬ Created log id) : Held maxIdleTime (log ++ [e]) id ↔ e.query.creates = some id := by
  unfold Held
  rw [created_snoc, forall_split_snoc (P := fun earlier e => Created earlier id →
    Leaves maxIdleTime id earlier e)]
  constructor
  · rintro ⟨hcreated, -⟩
    exact hcreated.resolve_left hnew
  · refine fun hcreates => ⟨.inr hcreates, fun earlier d rest heq hcreated => absurd ?_ hnew,
      fun h => absurd h hnew⟩
    obtain ⟨c, hc, hid⟩ := hcreated
    exact ⟨c, heq ▸ List.mem_append_left _ hc, hid⟩

theorem held_snoc (hcreated : Created log id) :
    Held maxIdleTime (log ++ [e]) id ↔ Held maxIdleTime log id ∧ Leaves maxIdleTime id log e := by
  unfold Held
  rw [created_snoc, forall_split_snoc (P := fun earlier e => Created earlier id →
    Leaves maxIdleTime id earlier e)]
  constructor
  · rintro ⟨-, hlog, hlast⟩
    exact ⟨⟨hcreated, hlog⟩, hlast hcreated⟩
  · rintro ⟨⟨-, hlog⟩, hlast⟩
    exact ⟨.inl hcreated, hlog, fun _ => hlast⟩

end

/-! ### What the store holds -/

/-- What is held is as it was created and last asked for. -/
structure Stamped (log : Log) (m : SessionManager) : Prop where
  active : ∀ id s, m.lookup id = some s → lastActive log id = some s.lastActive
  created : ∀ id s, m.lookup id = some s →
    ∃ e ∈ log, e.query = .create id s.clientId s.serviceName ∧ e.time = s.createdAt

/-- The store holds what the chronicle says. -/
structure Tells (maxIdleTime : Nat) (log : Log) (m : SessionManager) : Prop where
  maxIdleTime_eq : m.maxIdleTime = maxIdleTime
  held : ∀ id, (m.lookup id).isSome = true ↔ Held maxIdleTime log id
  stamped : Stamped log m

/-- A manager without sessions. -/
def fresh (maxIdleTime : Nat) : SessionManager := new.withMaxIdleTime maxIdleTime

variable {maxIdleTime : Nat} {log : Log} {m : SessionManager} {now : Nat}

theorem tells_fresh (maxIdleTime : Nat) : Tells maxIdleTime [] (fresh maxIdleTime) where
  maxIdleTime_eq := rfl
  held _ := iff_of_false Bool.false_ne_true fun h => nomatch h.1
  stamped := ⟨nofun, nofun⟩

/-- What is asked leaves a session in the store exactly if it leaves it. -/
theorem Tells.held_step (h : Tells maxIdleTime log m) (now : Nat) (q : Query)
    (hnew : ∀ id, q.creates = some id → ¬ Created log id) (id : String) :
    ((m.perform now q).2.lookup id).isSome = true ↔
      Held maxIdleTime (log ++ [⟨now, q, (m.perform now q).1⟩]) id := by
  rw [lookup_perform, h.maxIdleTime_eq]
  by_cases hcreated : Created log id
  · rw [held_snoc hcreated, ← h.held]
    cases hs : m.lookup id with
    | none =>
      refine iff_of_false ?_ fun h => Bool.false_ne_true h.1
      cases q with
      | create j _ _ =>
        have hne : id ≠ j := fun heq => hnew j rfl (heq ▸ hcreated)
        simp [Query.effect, hne]
      | get j => simp [Query.effect]
      | remove j => simp [Query.effect]
      | cleanup => simp [Query.effect]
    | some s =>
      rw [Option.isSome_some, eq_self_iff_true, true_and]
      have hactive := h.stamped.active id s hs
      cases q with
      | create j _ _ =>
        have hne : id ≠ j := fun heq => hnew j rfl (heq ▸ hcreated)
        simp [Query.effect, hne, Leaves]
      | get j => by_cases hj : id = j <;> simp [Query.effect, hj, Leaves]
      | remove j => by_cases hj : id = j <;> simp [Query.effect, hj, Leaves, eq_comm]
      | cleanup =>
        by_cases hidle : now - s.lastActive < maxIdleTime <;>
          simp [Query.effect, Leaves, hactive, Option.filter_some, Session.idleTime, hidle]
  · have hnone : m.lookup id = none := by
      cases hs : m.lookup id with
      | none => rfl
      | some s => exact absurd ((h.held id).mp (hs ▸ rfl)).1 hcreated
    rw [held_new hcreated, hnone]
    cases q with
    | create j _ _ => by_cases hj : id = j <;> simp [Query.effect, Query.creates, hj, eq_comm]
    | get j => simp [Query.effect, Query.creates]
    | remove j => simp [Query.effect, Query.creates]
    | cleanup => simp [Query.effect, Query.creates]

theorem Stamped.step (h : Stamped log m) (now : Nat) (q : Query) :
    Stamped (log ++ [⟨now, q, (m.perform now q).1⟩]) (m.perform now q).2 := by
  suffices hboth : ∀ id s, (m.perform now q).2.lookup id = some s →
      lastActive (log ++ [⟨now, q, (m.perform now q).1⟩]) id = some s.lastActive ∧
        ∃ e ∈ log ++ [⟨now, q, (m.perform now q).1⟩],
          e.query = .create id s.clientId s.serviceName ∧ e.time = s.createdAt from
    ⟨fun id s hs => (hboth id s hs).1, fun id s hs => (hboth id s hs).2⟩
  intro id s hs
  have hsame (hs : m.lookup id = some s) (hactivates : Activates id ⟨now, q, (m.perform now q).1⟩ = false) :
      lastActive (log ++ [⟨now, q, (m.perform now q).1⟩]) id = some s.lastActive ∧
        ∃ e ∈ log ++ [⟨now, q, (m.perform now q).1⟩],
          e.query = .create id s.clientId s.serviceName ∧ e.time = s.createdAt := by
    obtain ⟨e, he, hcreated⟩ := h.created id s hs
    rw [lastActive_snoc, hactivates]
    exact ⟨h.active id s hs, e, List.mem_append_left _ he, hcreated⟩
  rw [lookup_perform] at hs
  cases q with
  | create j clientId serviceName =>
    by_cases hj : id = j
    · subst hj
      obtain rfl : Session.new now id clientId serviceName = s := by simpa [Query.effect] using hs
      rw [lastActive_snoc]
      exact ⟨by simp [Activates, Session.new], _, List.mem_append_right _ (List.mem_singleton_self _), rfl, rfl⟩
    · exact hsame (by simpa [Query.effect, hj] using hs) (by simp [Activates, Ne.symm hj])
  | get j =>
    by_cases hj : id = j
    · subst hj
      obtain ⟨t, ht, rfl⟩ : ∃ t, m.lookup id = some t ∧ t.touch now = s := by simpa [Query.effect] using hs
      obtain ⟨e, he, hcreated⟩ := h.created id t ht
      rw [lastActive_snoc, answer_get, ht]
      exact ⟨by simp [Activates], e, List.mem_append_left _ he, hcreated⟩
    · refine hsame (by simpa [Query.effect, hj] using hs) ?_
      rw [answer_get]
      cases m.lookup j <;> simp [Activates, Ne.symm hj]
  | remove j =>
    by_cases hj : id = j
    · simp [Query.effect, hj] at hs
    · exact hsame (by simpa [Query.effect, hj] using hs) rfl
  | cleanup => exact hsame (Option.filter_eq_some_iff.mp hs).1 rfl

/-- The ids that are created are different ones. -/
def Distinct (asked : List (Nat × Query)) : Prop := (asked.filterMap fun q => q.2.creates).Nodup

theorem tells_after {asked : List (Nat × Query)} (hdistinct : Distinct asked) :
    Tells maxIdleTime (chronicle perform (fresh maxIdleTime) asked)
      (after perform (fresh maxIdleTime) asked) := by
  have hlog : ((chronicle perform (fresh maxIdleTime) asked).filterMap fun e => e.query.creates).Nodup := by
    rw [Distinct, ← chronicle_asked perform (fresh maxIdleTime) asked, List.filterMap_map] at hdistinct
    exact hdistinct
  refine kept (I := fun log m => (log.filterMap fun e => e.query.creates).Nodup → Tells maxIdleTime log m)
    (fun _ => tells_fresh maxIdleTime) ?_ hlog
  intro log m now q ih hlog
  rw [List.filterMap_append, List.nodup_append] at hlog
  obtain ⟨hbefore, -, hlast⟩ := hlog
  have h := ih hbefore
  have hnew (id : String) (hq : q.creates = some id) : ¬ Created log id := by
    rintro ⟨e, he, hid⟩
    exact hlast id (List.mem_filterMap.mpr ⟨e, he, hid⟩) id (by simp [hq]) rfl
  exact ⟨(perform_maxIdleTime ..).trans h.maxIdleTime_eq, h.held_step now q hnew, h.stamped.step now q⟩

/-- A query changes at most the session that it names. -/
theorem lookup_other (m : SessionManager) (now : Nat) {q : Query} (hq : q ≠ .cleanup) {id : String}
    (hid : q.names ≠ some id) : (m.perform now q).2.lookup id = m.lookup id := by
  rw [lookup_perform]
  cases q with
  | cleanup => exact absurd rfl hq
  | create j _ _ | get j | remove j =>
    have hne : id ≠ j := fun heq => hid (congrArg some heq.symm)
    simp [Query.effect, hne]

theorem lookup_cleanupIdle (m : SessionManager) (now : Nat) (id : String) :
    (m.cleanupIdle now).2.lookup id = (m.lookup id).filter fun s => s.idleTime now < m.maxIdleTime :=
  lookup_retain m id _

/-- What a cleanup returns is how many sessions are gone. -/
theorem cleanupIdle_count (m : SessionManager) (now : Nat) :
    (m.cleanupIdle now).1 = (m.sessions.filter fun s => ((m.cleanupIdle now).2.lookup s.id).isNone).length := by
  have hgone (s : Session) (hs : s ∈ m.sessions) :
      ((m.cleanupIdle now).2.lookup s.id).isNone = !decide (s.idleTime now < m.maxIdleTime) := by
    rw [lookup_cleanupIdle, (lookup_eq_some m s.id).mpr ⟨hs, rfl⟩, Option.filter_some]
    by_cases hidle : s.idleTime now < m.maxIdleTime <;> simp [hidle]
  have hsplit := List.length_eq_length_filter_add (l := m.sessions)
    fun s => decide (s.idleTime now < m.maxIdleTime)
  rw [List.filter_congr hgone]
  show m.sessions.length - (m.sessions.filter _).length = _
  omega

/-- The manager that was asked these. -/
def store (maxIdleTime : Nat) (asked : List (Nat × Query)) : SessionManager :=
  after perform (fresh maxIdleTime) asked

def logged (maxIdleTime : Nat) (asked : List (Nat × Query)) : Log := chronicle perform (fresh maxIdleTime) asked

/-- **A cleanup leaves exactly the sessions that were created, and neither removed nor cleaned up
before, and that are not idle now**; it counts those it removes, and nothing else changes more
than the session it names. -/
theorem cleanup_exact (maxIdleTime : Nat) {asked : List (Nat × Query)} (hdistinct : Distinct asked) :
    (∀ before now rest, asked = before ++ (now, .cleanup) :: rest →
      (∀ id, (((store maxIdleTime before).cleanupIdle now).2.lookup id).isSome = true ↔
        Held maxIdleTime (logged maxIdleTime before) id ∧
          ∃ s, lastActive (logged maxIdleTime before) id = some s ∧ now - s < maxIdleTime) ∧
      (∀ id s, ((store maxIdleTime before).cleanupIdle now).2.lookup id = some s →
        lastActive (logged maxIdleTime before) id = some s.lastActive ∧
          ∃ e ∈ logged maxIdleTime before, e.query = .create id s.clientId s.serviceName ∧ e.time = s.createdAt) ∧
      ((store maxIdleTime before).cleanupIdle now).1 = ((store maxIdleTime before).sessions.filter fun s =>
        (((store maxIdleTime before).cleanupIdle now).2.lookup s.id).isNone).length) ∧
    ∀ before now q rest, asked = before ++ (now, q) :: rest → q ≠ .cleanup → ∀ id, q.names ≠ some id →
      ((store maxIdleTime before).perform now q).2.lookup id = (store maxIdleTime before).lookup id := by
  refine ⟨?_, fun before now q _ _ hq id hid => lookup_other _ now hq hid⟩
  rintro before now rest rfl
  have hbefore : Distinct before := by
    unfold Distinct at hdistinct
    rw [List.filterMap_append] at hdistinct
    exact (List.nodup_append.mp hdistinct).1
  have h : Tells maxIdleTime (logged maxIdleTime before) (store maxIdleTime before) := tells_after hbefore
  have hlookup (id : String) : ((store maxIdleTime before).cleanupIdle now).2.lookup id =
      ((store maxIdleTime before).lookup id).filter fun s => s.idleTime now < maxIdleTime := by
    rw [lookup_cleanupIdle, h.maxIdleTime_eq]
  refine ⟨fun id => ?_, fun id s hs => ?_, cleanupIdle_count _ now⟩
  · rw [hlookup, ← h.held]
    cases hs : (store maxIdleTime before).lookup id with
    | none => simp
    | some s =>
      have hactive := h.stamped.active id s hs
      by_cases hidle : now - s.lastActive < maxIdleTime <;>
        simp [hactive, Option.filter_some, Session.idleTime, hidle]
  · have hs := (Option.filter_eq_some_iff.mp (hlookup id ▸ hs)).1
    exact ⟨h.stamped.active id s hs, h.stamped.created id s hs⟩

/-- Of two sessions, the one that was asked for is still there. -/
theorem cleanup_exact_two : Distinct [(0, .create "a" "client" "svc"), (1, .create "b" "client" "svc"),
      (4, .get "a"), (6, .cleanup)] ∧
    ((((store 5 [(0, .create "a" "client" "svc"), (1, .create "b" "client" "svc"), (4, .get "a")]).cleanupIdle
      6).2.lookup "a").isSome = true ↔
        Held 5 (logged 5 [(0, .create "a" "client" "svc"), (1, .create "b" "client" "svc"), (4, .get "a")]) "a" ∧
          ∃ s, lastActive (logged 5 [(0, .create "a" "client" "svc"), (1, .create "b" "client" "svc"),
            (4, .get "a")]) "a" = some s ∧ 6 - s < 5) := by
  have hdistinct : Distinct [(0, .create "a" "client" "svc"), (1, .create "b" "client" "svc"), (4, .get "a"),
      (6, .cleanup)] := by
    unfold Distinct
    decide
  exact ⟨hdistinct, ((cleanup_exact 5 hdistinct).1 _ 6 [] rfl).1 "a"⟩

/-! ### Whether the cleanups matter -/

def Query.isCleanup : Query → Bool
  | .cleanup => true
  | _ => false

/-- The clock does not go back. -/
abbrev InOrder (asked : List (Nat × Query)) : Prop := asked.Pairwise fun a b => a.1 ≤ b.1

/-- What is asked besides the cleanups. -/
def essentials (asked : List (Nat × Query)) : List (Nat × Query) := asked.filter fun q => !q.2.isCleanup

/-- What the clients get. -/
def gets (log : Log) : List (Nat × String × Option Session) :=
  log.filterMap fun e => match e.query, e.answer with
    | .get id, .got s => some (e.time, id, s)
    | _, _ => none

/-- When a session was created or asked for last, if it is there: cleanups apart. -/
def lastUse (id : String) (asked : List (Nat × Query)) : Option Nat :=
  asked.foldl (fun use q => match q.2 with
    | .create j _ _ => if id = j then some q.1 else use
    | .get j => if id = j then use.map fun _ => q.1 else use
    | .remove j => if id = j then none else use
    | .cleanup => use) none

/-- Wherever the cleanups stand, the clients get the same. -/
def Steadfast (maxIdleTime : Nat) (asked : List (Nat × Query)) : Prop :=
  ∀ asked', InOrder asked' → essentials asked' = essentials asked →
    gets (logged maxIdleTime asked') = gets (logged maxIdleTime asked)

/-- If a session is got, it has not been idle for too long. -/
def Fresh (maxIdleTime : Nat) (earlier : Log) (e : Entry Query Answer) : Prop :=
  ∀ id s, e.query = .get id → e.answer = .got (some s) → ∀ t, lastActive earlier id = some t →
    e.time - t < maxIdleTime

/-- Wherever the cleanups stand, no session comes back to life. -/
def NeverStale (maxIdleTime : Nat) (asked : List (Nat × Query)) : Prop :=
  ∀ asked', InOrder asked' → essentials asked' = essentials asked →
    ∀ earlier e rest, logged maxIdleTime asked' = earlier ++ e :: rest → Fresh maxIdleTime earlier e

/-- If a session is asked for that is there, it was used not too long ago. -/
def InTime (maxIdleTime : Nat) (earlier : List (Nat × Query)) (q : Nat × Query) : Prop :=
  ∀ id, q.2 = .get id → ∀ t, lastUse id earlier = some t → q.1 - t < maxIdleTime

def Prompt (maxIdleTime : Nat) (asked : List (Nat × Query)) : Prop :=
  ∀ earlier q rest, essentials asked = earlier ++ q :: rest → InTime maxIdleTime earlier q

theorem lastUse_snoc (id : String) (asked : List (Nat × Query)) (now : Nat) (q : Query) :
    lastUse id (asked ++ [(now, q)]) = match q with
      | .create j _ _ => if id = j then some now else lastUse id asked
      | .get j => if id = j then (lastUse id asked).map fun _ => now else lastUse id asked
      | .remove j => if id = j then none else lastUse id asked
      | .cleanup => lastUse id asked := List.foldl_append

theorem store_snoc (maxIdleTime : Nat) (asked : List (Nat × Query)) (now : Nat) (q : Query) :
    store maxIdleTime (asked ++ [(now, q)]) = ((store maxIdleTime asked).perform now q).2 := after_snoc ..

theorem logged_snoc (maxIdleTime : Nat) (asked : List (Nat × Query)) (now : Nat) (q : Query) :
    logged maxIdleTime (asked ++ [(now, q)]) =
      logged maxIdleTime asked ++ [⟨now, q, ((store maxIdleTime asked).perform now q).1⟩] := chronicle_snoc ..

theorem store_maxIdleTime (maxIdleTime : Nat) (asked : List (Nat × Query)) :
    (store maxIdleTime asked).maxIdleTime = maxIdleTime :=
  kept (I := fun _ (m : SessionManager) => m.maxIdleTime = maxIdleTime) rfl fun _ _ _ _ h =>
    (perform_maxIdleTime ..).trans h

theorem stamped_after (maxIdleTime : Nat) (asked : List (Nat × Query)) :
    Stamped (logged maxIdleTime asked) (store maxIdleTime asked) :=
  kept (tells_fresh maxIdleTime).stamped fun _ _ now q h => h.step now q

/-- Without cleanups the store has every session that is there. -/
theorem lastUse_store (maxIdleTime : Nat) (id : String) {asked : List (Nat × Query)}
    (hnone : ∀ q ∈ asked, q.2.isCleanup = false) :
    lastUse id asked = ((store maxIdleTime asked).lookup id).map Session.lastActive := by
  induction asked using List.reverseRecOn with
  | nil => rfl
  | append_singleton asked last ih =>
    obtain ⟨now, q⟩ := last
    obtain ⟨hbefore, hlast⟩ := List.forall_mem_append.mp hnone
    rw [lastUse_snoc, store_snoc, lookup_perform, ih hbefore]
    cases q with
    | create j _ _ => by_cases hj : id = j <;> simp [Query.effect, hj, Session.new]
    | get j => by_cases hj : id = j <;> simp [Query.effect, hj, Function.comp_def]
    | remove j => by_cases hj : id = j <;> simp [Query.effect, hj]
    | cleanup => cases hlast _ (List.mem_singleton_self _)

/-- What the cleanups have taken out of the store has been idle for too long. -/
def Behind (maxIdleTime now : Nat) (m m₀ : SessionManager) : Prop :=
  ∀ id, m.lookup id = m₀.lookup id ∨
    m.lookup id = none ∧ ∃ s, m₀.lookup id = some s ∧ maxIdleTime ≤ s.idleTime now

theorem Behind.later {m m₀ : SessionManager} {now later : Nat} (h : Behind maxIdleTime now m m₀)
    (hle : now ≤ later) :
    Behind maxIdleTime later m m₀ := fun id =>
  (h id).imp_right fun ⟨hnone, s, hs, hidle⟩ => ⟨hnone, s, hs, Nat.le_trans hidle (Nat.sub_le_sub_right hle _)⟩

/-- A query that is in time, or no question for a session, finds the two alike. -/
theorem Behind.step {m m₀ : SessionManager} {now : Nat} (h : Behind maxIdleTime now m m₀) {q : Query}
    (hq : q.isCleanup = false) (hprompt : ∀ id, q = .get id → m.lookup id = m₀.lookup id) :
    Behind maxIdleTime now (m.perform now q).2 (m₀.perform now q).2 := by
  intro id
  rw [lookup_perform, lookup_perform]
  by_cases hid : q.names = some id
  · refine .inl ?_
    cases q with
    | create j _ _ =>
      obtain rfl : j = id := Option.some.inj hid
      simp [Query.effect]
    | get j =>
      obtain rfl : j = id := Option.some.inj hid
      rw [hprompt j rfl]
      simp [Query.effect]
    | remove j =>
      obtain rfl : j = id := Option.some.inj hid
      simp [Query.effect]
    | cleanup => cases hq
  · have hother (t : Option Session) (k : Nat) : q.effect k now id t = t := by
      cases q with
      | cleanup => cases hq
      | create j _ _ | get j | remove j =>
        have hne : id ≠ j := fun heq => hid (congrArg some heq.symm)
        simp [Query.effect, hne]
    rw [hother, hother]
    exact h id

theorem Behind.cleanup {m m₀ : SessionManager} {now : Nat} (hmax : m.maxIdleTime = maxIdleTime)
    (h : Behind maxIdleTime now m m₀) : Behind maxIdleTime now (m.perform now .cleanup).2 m₀ := by
  intro id
  rw [lookup_perform, hmax]
  rcases h id with hsame | ⟨hnone, hgone⟩
  · rw [hsame]
    cases hs : m₀.lookup id with
    | none => exact .inl rfl
    | some s =>
      by_cases hidle : s.idleTime now < maxIdleTime
      · exact .inl (by simp [Query.effect, Option.filter_some, hidle])
      · exact .inr ⟨by simp [Query.effect, Option.filter_some, hidle], s, rfl, Nat.le_of_not_lt hidle⟩
  · rw [hnone]
    exact .inr ⟨rfl, hgone⟩

theorem gets_append (log rest : Log) : gets (log ++ rest) = gets log ++ gets rest := List.filterMap_append

/-- What somebody asks for in time is found, whatever has been cleaned up. -/
theorem Behind.found {asked : List (Nat × Query)} {m : SessionManager} {now : Nat}
    (hnone : ∀ q ∈ asked, q.2.isCleanup = false)
    (h : Behind maxIdleTime now m (store maxIdleTime asked)) {id : String}
    (hintime : InTime maxIdleTime asked (now, .get id)) : m.lookup id = (store maxIdleTime asked).lookup id := by
  rcases h id with hsame | ⟨-, s, hs, hidle⟩
  · exact hsame
  · refine absurd (hintime id rfl s.lastActive ?_) (Nat.not_lt.mpr hidle)
    rw [lastUse_store maxIdleTime id hnone, hs]
    rfl

/-- What is asked in time gets what it would get without the cleanups. -/
structure Unharmed (maxIdleTime : Nat) (asked : List (Nat × Query)) : Prop where
  same : gets (logged maxIdleTime asked) = gets (logged maxIdleTime (essentials asked))
  fresh : ∀ earlier e rest, logged maxIdleTime asked = earlier ++ e :: rest → Fresh maxIdleTime earlier e
  behind : ∀ now, (∀ q ∈ asked, q.1 ≤ now) →
    Behind maxIdleTime now (store maxIdleTime asked) (store maxIdleTime (essentials asked))

theorem essentials_nocleanup (asked : List (Nat × Query)) : ∀ q ∈ essentials asked, q.2.isCleanup = false :=
  fun q hq => by simpa using (List.mem_filter.mp hq).2

theorem Unharmed.cleanup {asked : List (Nat × Query)} {now : Nat} (h : Unharmed maxIdleTime asked)
    (htimes : ∀ q ∈ asked, q.1 ≤ now) : Unharmed maxIdleTime (asked ++ [(now, .cleanup)]) := by
  have hessentials : essentials (asked ++ [(now, .cleanup)]) = essentials asked := by
    simp [essentials, Query.isCleanup]
  constructor
  · rw [logged_snoc, gets_append, hessentials, ← h.same]
    exact List.append_nil _
  · rw [logged_snoc]
    exact forall_split_snoc.mpr ⟨h.fresh, nofun⟩
  · intro later hlater
    rw [store_snoc, hessentials]
    exact ((h.behind now htimes).cleanup (store_maxIdleTime ..)).later
      (hlater (now, .cleanup) (List.mem_append_right _ (List.mem_singleton_self _)))

theorem Unharmed.step {asked : List (Nat × Query)} {now : Nat} {q : Query} (h : Unharmed maxIdleTime asked)
    (htimes : ∀ q ∈ asked, q.1 ≤ now) (hq : q.isCleanup = false)
    (hintime : InTime maxIdleTime (essentials asked) (now, q)) : Unharmed maxIdleTime (asked ++ [(now, q)]) := by
  have hessentials : essentials (asked ++ [(now, q)]) = essentials asked ++ [(now, q)] := by
    simp [essentials, hq]
  have hbehind := h.behind now htimes
  have hfound (id : String) (hid : q = .get id) :
      (store maxIdleTime asked).lookup id = (store maxIdleTime (essentials asked)).lookup id :=
    hbehind.found (essentials_nocleanup asked) (hid ▸ hintime)
  constructor
  · rw [logged_snoc, gets_append, hessentials, logged_snoc, gets_append, h.same]
    cases q with
    | get id =>
      rw [answer_get, answer_get, hfound id rfl]
    | _ => rfl
  · rw [logged_snoc]
    refine forall_split_snoc.mpr ⟨h.fresh, ?_⟩
    rintro id s rfl hanswer t hactive
    refine hintime id rfl t ?_
    rw [answer_get] at hanswer
    obtain ⟨u, hu, -⟩ := Option.map_eq_some_iff.mp (Answer.got.inj hanswer)
    rw [(stamped_after maxIdleTime asked).active id u hu] at hactive
    rw [lastUse_store maxIdleTime id (essentials_nocleanup asked), ← hfound id rfl, hu]
    exact hactive
  · intro later hlater
    rw [store_snoc, hessentials, store_snoc]
    exact (hbehind.step hq hfound).later (hlater (now, q) (List.mem_append_right _ (List.mem_singleton_self _)))

theorem unharmed {asked : List (Nat × Query)} (hsorted : InOrder asked)
    (hprompt : Prompt maxIdleTime asked) : Unharmed maxIdleTime asked := by
  induction asked using List.reverseRecOn with
  | nil =>
    refine ⟨rfl, fun earlier e rest heq => ?_, fun now _ id => .inl rfl⟩
    cases earlier <;> cases heq
  | append_singleton asked last ih =>
    obtain ⟨now, q⟩ := last
    obtain ⟨hbefore, -, hlast⟩ := List.pairwise_append.mp hsorted
    have htimes (p : Nat × Query) (hp : p ∈ asked) : p.1 ≤ now := hlast p hp _ (List.mem_singleton_self _)
    unfold Prompt at hprompt
    cases hq : q.isCleanup with
    | true =>
      cases q with
      | cleanup =>
        have hessentials : essentials (asked ++ [(now, .cleanup)]) = essentials asked := by
          simp [essentials, Query.isCleanup]
        rw [hessentials] at hprompt
        exact (ih hbefore hprompt).cleanup htimes
      | _ => cases hq
    | false =>
      have hessentials : essentials (asked ++ [(now, q)]) = essentials asked ++ [(now, q)] := by
        simp [essentials, hq]
      rw [hessentials, forall_split_snoc] at hprompt
      exact (ih hbefore hprompt.1).step htimes hq hprompt.2

theorem essentials_essentials (asked : List (Nat × Query)) : essentials (essentials asked) = essentials asked :=
  List.filter_filter.trans (by simp [essentials])

/-- A session that is asked for too late is got if nobody cleaned up, and not if somebody just did. -/
theorem got_late {earlier : List (Nat × Query)} (hnone : ∀ q ∈ earlier, q.2.isCleanup = false) {id : String}
    {now t : Nat} (huse : lastUse id earlier = some t) (hlate : maxIdleTime ≤ now - t) :
    (∃ s, (store maxIdleTime earlier).lookup id = some s ∧ s.lastActive = t) ∧
      (store maxIdleTime (earlier ++ [(now, .cleanup)])).lookup id = none := by
  rw [lastUse_store maxIdleTime id hnone] at huse
  obtain ⟨s, hs, rfl⟩ := Option.map_eq_some_iff.mp huse
  refine ⟨⟨s, hs, rfl⟩, ?_⟩
  rw [store_snoc, lookup_perform, hs, store_maxIdleTime]
  simp [Query.effect, Option.filter_some, Session.idleTime, Nat.not_lt.mpr hlate]

theorem gets_get (maxIdleTime : Nat) (earlier : List (Nat × Query)) (now : Nat) (id : String)
    (rest : List (Nat × Query)) :
    ∃ later, gets (logged maxIdleTime (earlier ++ (now, .get id) :: rest)) = gets (logged maxIdleTime earlier) ++
      (now, id, ((store maxIdleTime earlier).lookup id).map fun s => s.touch now) :: later := by
  unfold logged
  rw [chronicle_append, gets_append, chronicle, answer_get]
  exact ⟨_, rfl⟩

section
variable {asked earlier rest : List (Nat × Query)} {now t : Nat} {id : String}
  (hsorted : InOrder asked) (heq : essentials asked = earlier ++ (now, .get id) :: rest)
  (huse : lastUse id earlier = some t)
include hsorted heq huse

/-- A cleanup just before a session is asked for too late makes a difference. -/
theorem Steadfast.intime (h : Steadfast maxIdleTime asked) : now - t < maxIdleTime := by
  by_contra hlate
  have hnone (p : Nat × Query) (hp : p ∈ earlier ++ (now, .get id) :: rest) : p.2.isCleanup = false :=
    essentials_nocleanup asked p (heq ▸ hp)
  have hessential : InOrder (earlier ++ (now, .get id) :: rest) :=
    heq ▸ hsorted.sublist List.filter_sublist
  have hsame : essentials (earlier ++ (now, .get id) :: rest) = essentials asked :=
    heq ▸ essentials_essentials asked
  have hcleaned : essentials (earlier ++ [(now, .cleanup)] ++ (now, .get id) :: rest) = essentials asked := by
    rw [← hsame]
    simp [essentials, Query.isCleanup]
  have hcleanedsorted : InOrder (earlier ++ [(now, .cleanup)] ++ (now, .get id) :: rest) := by
    obtain ⟨hearlier, hrest, hbetween⟩ := List.pairwise_append.mp hessential
    rw [List.append_assoc, List.singleton_append]
    refine List.pairwise_append.mpr ⟨hearlier, List.pairwise_cons.mpr ⟨?_, hrest⟩, ?_⟩
    · exact List.forall_mem_cons.mpr ⟨Nat.le_refl now, (List.pairwise_cons.mp hrest).1⟩
    · intro p hp
      have hle : p.1 ≤ now := hbetween p hp (now, .get id) List.mem_cons_self
      exact List.forall_mem_cons.mpr ⟨hle, hbetween p hp⟩
  obtain ⟨⟨s, hs, -⟩, hgone⟩ := got_late (fun p hp => hnone p (List.mem_append_left _ hp)) huse
    (Nat.le_of_not_lt hlate)
  have hgets : gets (logged maxIdleTime (earlier ++ [(now, .cleanup)])) = gets (logged maxIdleTime earlier) := by
    rw [logged_snoc, gets_append]
    exact List.append_nil _
  obtain ⟨later, hlater⟩ := gets_get maxIdleTime earlier now id rest
  obtain ⟨later', hlater'⟩ := gets_get maxIdleTime (earlier ++ [(now, .cleanup)]) now id rest
  have hboth := (h _ hcleanedsorted hcleaned).trans (h _ hessential hsame).symm
  rw [hlater, hlater', hgets, List.append_cancel_left_eq, hs, hgone] at hboth
  exact nomatch (List.cons.inj hboth).1

/-- Without cleanups a session that is asked for too late comes back to life. -/
theorem NeverStale.intime (h : NeverStale maxIdleTime asked) : now - t < maxIdleTime := by
  by_contra hlate
  have hnone (p : Nat × Query) (hp : p ∈ earlier) : p.2.isCleanup = false :=
    essentials_nocleanup asked p (heq ▸ List.mem_append_left _ hp)
  obtain ⟨⟨s, hs, rfl⟩, -⟩ := got_late hnone huse (Nat.le_of_not_lt hlate)
  have hlog : logged maxIdleTime (essentials asked) = logged maxIdleTime earlier ++
      ⟨now, .get id, .got (some (s.touch now))⟩ ::
        chronicle perform (((store maxIdleTime earlier).perform now (.get id)).2) rest := by
    rw [heq, logged, chronicle_append, chronicle, answer_get]
    show _ ++ Entry.mk now (Query.get id) (Answer.got (((store maxIdleTime earlier).lookup id).map _)) :: _ = _
    rw [hs]
    rfl
  exact hlate (h (essentials asked) (hsorted.sublist List.filter_sublist)
    (essentials_essentials asked) _ _ _ hlog id
    (s.touch now) rfl rfl _ ((stamped_after maxIdleTime earlier).active id s hs))

end

/-- **The clients get the same wherever the cleanups stand, and no session comes back to life,
exactly if every session is asked for in time.** -/
theorem steadfast_iff (maxIdleTime : Nat) {asked : List (Nat × Query)}
    (hsorted : InOrder asked) :
    (Steadfast maxIdleTime asked ↔ Prompt maxIdleTime asked) ∧
      (NeverStale maxIdleTime asked ↔ Prompt maxIdleTime asked) := by
  have hsame (hprompt : Prompt maxIdleTime asked) (asked' : List (Nat × Query))
      (hsorted' : InOrder asked') (heq : essentials asked' = essentials asked) :
      Unharmed maxIdleTime asked' := by
    refine unharmed hsorted' ?_
    unfold Prompt
    rw [heq]
    exact hprompt
  refine ⟨⟨?_, ?_⟩, ⟨?_, ?_⟩⟩
  · rintro h earlier ⟨now, q⟩ rest heq id rfl t huse
    exact h.intime hsorted heq huse
  · intro hprompt asked' hsorted' heq
    rw [(hsame hprompt asked' hsorted' heq).same, (hsame hprompt asked hsorted rfl).same, heq]
  · rintro h earlier ⟨now, q⟩ rest heq id rfl t huse
    exact h.intime hsorted heq huse
  · intro hprompt asked' hsorted' heq
    exact (hsame hprompt asked' hsorted' heq).fresh

/-- A session that is asked for in time, twice. -/
theorem steadfast_iff_one : InOrder [(0, .create "a" "client" "svc"), (3, .get "a"), (7, .get "a")] ∧
    Steadfast 5 [(0, .create "a" "client" "svc"), (3, .get "a"), (7, .get "a")] := by
  have hsorted : InOrder [(0, .create "a" "client" "svc"), (3, .get "a"), (7, .get "a")] := by simp
  refine ⟨hsorted, (steadfast_iff 5 hsorted).1.mpr fun earlier q rest heq id hq t ht => ?_⟩
  match earlier, heq with
  | [], heq => cases heq; cases hq
  | [_], heq => cases heq; cases hq; cases ht; decide
  | [_, _], heq => cases heq; cases hq; cases ht; decide
  | _ :: _ :: _ :: more, heq => cases more <;> cases heq

/-- A session that has been idle for longer than allowed is got, and not if it was just cleaned up. -/
theorem got_too_late :
    gets (logged 5 [(0, .create "a" "client" "svc"), (7, .cleanup), (7, .get "a")]) = [(7, "a", none)] ∧
      gets (logged 5 [(0, .create "a" "client" "svc"), (7, .get "a")]) = [(7, "a", some
        { id := "a", clientId := "client", serviceName := "svc", createdAt := 0, lastActive := 7,
          metadata := [] })] ∧
      ¬ Steadfast 5 [(0, .create "a" "client" "svc"), (7, .get "a")] ∧
      ¬ NeverStale 5 [(0, .create "a" "client" "svc"), (7, .get "a")] := by
  refine ⟨rfl, rfl, ?_, ?_⟩
  · intro h
    have hsame := h [(0, .create "a" "client" "svc"), (7, .cleanup), (7, .get "a")] (by simp) rfl
    exact nomatch hsame
  · intro h
    have hidle := h [(0, .create "a" "client" "svc"), (7, .get "a")]
      (by simp) rfl [_] _ [] rfl "a" _ rfl rfl 0 rfl
    exact absurd hidle (by decide)

end XProtocol.SessionManager
