import Mathlib.Algebra.Group.Nat.Defs
import Mathlib.Data.List.Nodup
import XProtocol.Chronicle

/-! The session manager.

Sessions are kept by their id, one for each. Whoever asks for a session touches it; only
`cleanup_idle` looks at how long it has not been touched. Instants are numbers, and the
difference of two of them is cut off at zero, as `elapsed` does. -/
namespace XProtocol

structure SessionManager.Session where
  id : String
  clientId : String
  serviceName : String
  createdAt : Nat
  lastActive : Nat
  metadata : List (String × String)

namespace SessionManager.Session

def new (now : Nat) (id clientId serviceName : String) : Session :=
  { id, clientId, serviceName, createdAt := now, lastActive := now, metadata := [] }

def touch (s : Session) (now : Nat) : Session := { s with lastActive := now }

def idleTime (s : Session) (now : Nat) : Nat := now - s.lastActive

@[simp] theorem touch_id (s : Session) (now : Nat) : (s.touch now).id = s.id := rfl

@[simp] theorem touch_lastActive (s : Session) (now : Nat) : (s.touch now).lastActive = now := rfl

end SessionManager.Session

structure SessionManager where
  sessions : List SessionManager.Session
  maxIdleTime : Nat
  distinct : (sessions.map SessionManager.Session.id).Nodup

namespace SessionManager

/-- Five minutes, in nanoseconds. -/
def new : SessionManager := { sessions := [], maxIdleTime := 300 * 10 ^ 9, distinct := .nil }

def withMaxIdleTime (m : SessionManager) (maxIdleTime : Nat) : SessionManager := { m with maxIdleTime }

/-- `sessions.get(id)`. -/
def lookup (m : SessionManager) (id : String) : Option Session := m.sessions.find? fun s => s.id = id

/-- `sessions.retain(..)`. -/
def retain (m : SessionManager) (keep : Session → Bool) : SessionManager where
  sessions := m.sessions.filter keep
  maxIdleTime := m.maxIdleTime
  distinct := m.distinct.sublist (List.filter_sublist.map _)

/-- `sessions.insert(session.id, session)`. -/
def insert (m : SessionManager) (session : Session) : SessionManager where
  sessions := (m.retain fun s => s.id ≠ session.id).sessions ++ [session]
  maxIdleTime := m.maxIdleTime
  distinct := by
    rw [List.map_append, List.map_singleton, List.nodup_append]
    refine ⟨(m.retain _).distinct, List.nodup_singleton _, ?_⟩
    intro id hid other hother
    obtain ⟨s, hs, rfl⟩ := List.mem_map.mp hid
    rw [List.mem_singleton.mp hother]
    exact of_decide_eq_true (List.mem_filter.mp hs).2

/-- Every session with the id is touched. -/
def touch (m : SessionManager) (now : Nat) (id : String) : SessionManager where
  sessions := m.sessions.map fun s => if s.id = id then s.touch now else s
  maxIdleTime := m.maxIdleTime
  distinct := by
    rw [List.map_map]
    have hsame : Session.id ∘ (fun s => if s.id = id then s.touch now else s) = Session.id := by
      funext s
      by_cases hs : s.id = id <;> simp [hs]
    rw [hsame]
    exact m.distinct

/-- `create_session`; the id is a new uuid. -/
def createSession (m : SessionManager) (now : Nat) (id clientId serviceName : String) :
    Session × SessionManager :=
  let session := Session.new now id clientId serviceName
  (session, m.insert session)

def getSession (m : SessionManager) (now : Nat) (id : String) : Option Session × SessionManager :=
  match m.lookup id with
  | some session => (some (session.touch now), m.touch now id)
  | none => (none, m)

def removeSession (m : SessionManager) (id : String) : Option Session × SessionManager :=
  (m.lookup id, m.retain fun s => s.id ≠ id)

def cleanupIdle (m : SessionManager) (now : Nat) : Nat × SessionManager :=
  let kept := m.retain fun s => s.idleTime now < m.maxIdleTime
  (m.sessions.length - kept.sessions.length, kept)

/-! ### What the store holds -/

section
variable (m : SessionManager) (now : Nat) (id j : String)

theorem lookup_eq_some {s : Session} : m.lookup j = some s ↔ s ∈ m.sessions ∧ s.id = j := by
  constructor
  · intro h
    exact ⟨List.mem_of_find?_eq_some h, by simpa using List.find?_some h⟩
  · rintro ⟨hs, rfl⟩
    have hsome : (m.lookup s.id).isSome = true := List.find?_isSome.mpr ⟨s, hs, decide_eq_true rfl⟩
    obtain ⟨t, ht⟩ := Option.isSome_iff_exists.mp hsome
    have hid : t.id = s.id := by simpa using List.find?_some ht
    rw [ht, List.inj_on_of_nodup_map m.distinct (List.mem_of_find?_eq_some ht) hs hid]

theorem lookup_retain (keep : Session → Bool) : (m.retain keep).lookup j = (m.lookup j).filter keep := by
  ext s
  rw [lookup_eq_some, Option.filter_eq_some_iff, lookup_eq_some]
  simp only [retain, List.mem_filter]
  exact and_right_comm

theorem lookup_insert (session : Session) :
    (m.insert session).lookup j = if j = session.id then some session else m.lookup j := by
  ext s
  rw [lookup_eq_some]
  by_cases hj : j = session.id
  · subst hj
    simp only [insert, retain, List.mem_append, List.mem_filter, List.mem_singleton, if_true, Option.some.injEq]
    constructor
    · rintro ⟨⟨-, hne⟩ | rfl, hid⟩
      · exact absurd hid (of_decide_eq_true hne)
      · rfl
    · rintro rfl
      exact ⟨.inr rfl, rfl⟩
  · rw [if_neg hj, lookup_eq_some]
    simp only [insert, retain, List.mem_append, List.mem_filter, List.mem_singleton]
    constructor
    · rintro ⟨⟨hs, -⟩ | rfl, hid⟩
      · exact ⟨hs, hid⟩
      · exact absurd hid.symm hj
    · rintro ⟨hs, rfl⟩
      exact ⟨.inl ⟨hs, decide_eq_true hj⟩, rfl⟩

theorem lookup_touch :
    (m.touch now id).lookup j = if j = id then (m.lookup j).map fun s => s.touch now else m.lookup j := by
  unfold lookup touch
  rw [List.find?_map]
  have hsame : (fun s : Session => decide (s.id = j)) ∘ (fun s => if s.id = id then s.touch now else s) =
      fun s => decide (s.id = j) := by
    funext s
    by_cases hs : s.id = id <;> simp [hs]
  rw [hsame]
  cases hfind : m.sessions.find? fun s => s.id = j with
  | none => simp
  | some s =>
    have hid : s.id = j := by simpa using List.find?_some hfind
    by_cases hj : j = id <;> simp [hj, hid]

end

/-! ### What is asked of it -/

inductive Query where
  | create (id clientId serviceName : String)
  | get (id : String)
  | remove (id : String)
  | cleanup

inductive Answer where
  | created (s : Session)
  | got (s : Option Session)
  | removed (s : Option Session)
  | cleaned (n : Nat)

def perform (m : SessionManager) (now : Nat) : Query → Answer × SessionManager
  | .create id clientId serviceName =>
    (.created (m.createSession now id clientId serviceName).1, (m.createSession now id clientId serviceName).2)
  | .get id => (.got (m.getSession now id).1, (m.getSession now id).2)
  | .remove id => (.removed (m.removeSession id).1, (m.removeSession id).2)
  | .cleanup => (.cleaned (m.cleanupIdle now).1, (m.cleanupIdle now).2)

/-- What a query makes of a session's place in the store. -/
def Query.effect (maxIdleTime now : Nat) (j : String) : Query → Option Session → Option Session
  | .create id clientId serviceName, s => if j = id then some (.new now id clientId serviceName) else s
  | .get id, s => if j = id then s.map fun s => s.touch now else s
  | .remove id, s => if j = id then none else s
  | .cleanup, s => s.filter fun s => s.idleTime now < maxIdleTime

/-- **A query deals with each session by itself.** -/
theorem lookup_perform (m : SessionManager) (now : Nat) (q : Query) (j : String) :
    (m.perform now q).2.lookup j = q.effect m.maxIdleTime now j (m.lookup j) := by
  cases q with
  | create id clientId serviceName => exact lookup_insert m j _
  | get id =>
    show (m.getSession now id).2.lookup j = _
    unfold getSession
    cases hid : m.lookup id with
    | some s => exact lookup_touch m now id j
    | none =>
      show m.lookup j = if j = id then _ else _
      by_cases hj : j = id
      · rw [if_pos hj, hj, hid]
        rfl
      · rw [if_neg hj]
  | remove id =>
    show (m.retain fun s => s.id ≠ id).lookup j = _
    rw [lookup_retain]
    show _ = if j = id then none else m.lookup j
    cases hj : m.lookup j with
    | none => simp
    | some s =>
      have hid : s.id = j := ((lookup_eq_some m j).mp hj).2
      by_cases hji : j = id <;> simp [hid, hji]
  | cleanup => exact lookup_retain m j _

@[simp] theorem perform_maxIdleTime (m : SessionManager) (now : Nat) (q : Query) :
    (m.perform now q).2.maxIdleTime = m.maxIdleTime := by
  cases q with
  | get id =>
    show (m.getSession now id).2.maxIdleTime = _
    unfold getSession
    split <;> rfl
  | _ => rfl

theorem answer_get (m : SessionManager) (now : Nat) (id : String) :
    (m.perform now (.get id)).1 = .got ((m.lookup id).map fun s => s.touch now) := by
  show Answer.got (m.getSession now id).1 = _
  unfold getSession
  split <;> simp_all

end SessionManager

end XProtocol
