import XProtocol.Auth.RateLimit

/-! Rate limiters that many threads ask at once.

A thread reads the clock, and takes the lock some time later. Its locked section goes by
what the thread has read: what it enters is as old as the reading, so that it leaves the
window early, and the slot of a request that was admitted a moment ago is given away
again. As long as no section drops a request that was admitted less than a window before,
the limit holds (`contention_bounded`). -/
namespace XProtocol

/-- The `RateLimiter` of `utils`, which knows no clients. -/
structure Utils.RateLimiter where
  maxRequests : Nat
  window : Nat
  requests : List Nat

namespace Utils.RateLimiter

def new (maxRequests window : Nat) : RateLimiter := { maxRequests, window, requests := [] }

/-- `try_acquire`, behind the reading of the clock. -/
def tryAcquire (l : RateLimiter) (now : Nat) : Bool × RateLimiter :=
  let requests := l.requests.filter fun t => now - t < l.window
  if requests.length < l.maxRequests then (true, { l with requests := requests ++ [now] })
  else (false, { l with requests })

end Utils.RateLimiter

/-! ### Threads -/

/-- A request that was admitted: by which reading of the clock, and when. -/
structure Admission (K : Type) where
  reading : Nat
  time : Nat
  key : K

/-- A limiter `L` that is asked by key, and the threads that ask it. -/
structure Contention (L K : Type) where
  clock : Nat
  /-- What the threads on their way to the lock have read, and what they ask for. -/
  readings : Nat → Option (Nat × K)
  limiter : L
  admitted : List (Admission K)

namespace Contention
variable {L K : Type}

inductive Event (K : Type) where
  | tick (d : Nat)
  /-- A thread calls the limiter and reads the clock. -/
  | read (thread : Nat) (key : K)
  /-- A thread takes the lock and runs its section. -/
  | lock (thread : Nat)

def fresh (limiter : L) : Contention L K := { clock := 0, readings := fun _ => none, limiter, admitted := [] }

variable (check : L → Nat → K → Bool × L)

/-- One step; a thread that is on its way reads no clock, and one that is not takes no lock. -/
def step (s : Contention L K) : Event K → Contention L K
  | .tick d => { s with clock := s.clock + d }
  | .read thread key =>
    if s.readings thread = none then
      { s with readings := fun u => if u = thread then some (s.clock, key) else s.readings u }
    else s
  | .lock thread =>
    match s.readings thread with
    | none => s
    | some (now, key) =>
      let (admits, limiter) := check s.limiter now key
      { s with
        readings := fun u => if u = thread then none else s.readings u
        limiter
        admitted := if admits then s.admitted ++ [⟨now, s.clock, key⟩] else s.admitted }

def run (s : Contention L K) (events : List (Event K)) : Contention L K := events.foldl (step check) s

/-- A section that runs now with this reading drops none of the requests of the last window. -/
def Keeps (window : Nat) (s : Contention L K) (now : Nat) (key : K) : Prop :=
  ∀ a ∈ s.admitted, a.key = key → s.clock - a.time < window → now - a.reading < window

/-- No section drops a request that was admitted less than a window before. -/
def Lasting (window : Nat) : Contention L K → List (Event K) → Prop
  | _, [] => True
  | s, e :: rest =>
    (∀ thread now key, e = .lock thread → s.readings thread = some (now, key) → s.Keeps window now key) ∧
      Lasting window (s.step check e) rest

/-- The admissions with their times. -/
def log (s : Contention L K) : List (Nat × K) := s.admitted.map fun a => (a.time, a.key)

/-! ### Per client -/

section Clients
open RateLimiter (Bounded)
variable {maxRequests window : Nat} {s : Contention RateLimiter String}

/-- The admissions of a client in the last window, by their readings. -/
def lately (window : Nat) (s : Contention L String) (clientId : String) : List Nat :=
  (s.admitted.filter fun a => a.key = clientId ∧ s.clock - a.time < window).map Admission.reading

/-- The limiter knows the admissions of the last window, and they stay within the limit. -/
structure Known (maxRequests window : Nat) (s : Contention RateLimiter String) : Prop where
  maxRequests_eq : s.limiter.maxRequests = maxRequests
  window_eq : s.limiter.window = window
  past : ∀ a ∈ s.admitted, a.time ≤ s.clock
  kept : ∀ clientId, (s.lately window clientId).Sublist (s.limiter.requests clientId)
  bounded : Bounded maxRequests window s.log

theorem known_fresh (maxRequests window : Nat) :
    (fresh (.new maxRequests window) : Contention RateLimiter String).Known maxRequests window :=
  ⟨rfl, rfl, nofun, fun _ => List.Sublist.refl _, fun _ _ _ _ => Nat.zero_le _⟩

/-- As time passes, fewer admissions are of the last window. -/
theorem lately_tick (window : Nat) (s : Contention RateLimiter String) (d : Nat) (clientId : String) :
    (({ s with clock := s.clock + d } : Contention RateLimiter String).lately window clientId).Sublist
      (s.lately window clientId) := by
  have hlater : (s.admitted.filter fun a => a.key = clientId ∧ s.clock + d - a.time < window) =
      (s.admitted.filter fun a => a.key = clientId ∧ s.clock - a.time < window).filter
        fun a => a.key = clientId ∧ s.clock + d - a.time < window := by
    rw [List.filter_filter]
    refine List.filter_congr fun a _ => ?_
    rw [← Bool.decide_and]
    exact decide_eq_decide.mpr ⟨fun h => ⟨h, h.1, by omega⟩, And.left⟩
  unfold lately
  rw [hlater]
  exact List.filter_sublist.map Admission.reading

/-- Where the section keeps them, the admissions of the last window are among what it counts. -/
theorem lately_recent (hs : s.Known maxRequests window) {now : Nat} {clientId : String}
    (hkeeps : s.Keeps window now clientId) :
    (s.lately window clientId).Sublist (s.limiter.recent now clientId) := by
  have hall : (s.lately window clientId).filter (fun t => now - t < s.limiter.window) =
    s.lately window clientId := by
    refine List.filter_eq_self.mpr fun t ht => ?_
    obtain ⟨a, ha, rfl⟩ := List.mem_map.mp ht
    obtain ⟨hmem, ha⟩ := List.mem_filter.mp ha
    obtain ⟨hkey, hlate⟩ := of_decide_eq_true ha
    rw [hs.window_eq]
    exact decide_eq_true (hkeeps a hmem hkey hlate)
  rw [← hall]
  exact (hs.kept clientId).filter _

theorem length_lately (window : Nat) (s : Contention RateLimiter String) (clientId : String) :
    (s.log.filter fun e => e.2 = clientId ∧ s.clock - e.1 < window).length = (s.lately window clientId).length := by
  rw [log, List.filter_map, List.length_map, lately, List.length_map]
  rfl

theorem known_lock (hwindow : 0 < window) (hs : s.Known maxRequests window) {thread now : Nat} {clientId : String}
    (hreading : s.readings thread = some (now, clientId)) (hkeeps : s.Keeps window now clientId) :
    (s.step RateLimiter.check (.lock thread)).Known maxRequests window := by
  have hrecent := lately_recent hs hkeeps
  have hother {id : String} (hid : id ≠ clientId) (admissions : List Nat) :
      (s.limiter.set clientId admissions).requests id = s.limiter.requests id := if_neg hid
  have hself (admissions : List Nat) : (s.limiter.set clientId admissions).requests clientId =
    admissions := if_pos rfl
  by_cases hroom : (s.limiter.recent now clientId).length < s.limiter.maxRequests
  · have hcheck : s.limiter.check now clientId =
        (true, s.limiter.set clientId (s.limiter.recent now clientId ++ [now])) := if_pos hroom
    simp only [step, hreading, hcheck, if_true]
    refine ⟨hs.maxRequests_eq, hs.window_eq, ?_, fun id => ?_, ?_⟩
    · intro a ha
      rcases List.mem_append.mp ha with ha | ha
      · exact hs.past a ha
      · exact Nat.le_of_eq (congrArg Admission.time (List.mem_singleton.mp ha))
    · by_cases hid : id = clientId
      · subst hid
        rw [hself]
        simpa [lately, List.filter_append, hwindow] using hrecent.append_right [now]
      · rw [hother hid]
        simpa [lately, List.filter_append, Ne.symm hid] using hs.kept id
    · simp only [log, List.map_append]
      refine (RateLimiter.bounded_snoc (fun d hd => ?_) hwindow).mpr ⟨hs.bounded, ?_⟩
      · obtain ⟨a, ha, rfl⟩ := List.mem_map.mp hd
        exact hs.past a ha
      · have hlately := Nat.lt_of_le_of_lt hrecent.length_le hroom
        rw [← length_lately window s clientId, hs.maxRequests_eq] at hlately
        exact hlately
  · have hcheck : s.limiter.check now clientId = (false, s.limiter.set clientId (s.limiter.recent now clientId)) :=
      if_neg hroom
    simp only [step, hreading, hcheck, Bool.false_eq_true, if_false]
    refine ⟨hs.maxRequests_eq, hs.window_eq, hs.past, fun id => ?_, hs.bounded⟩
    by_cases hid : id = clientId
    · subst hid
      rw [hself]
      exact hrecent
    · rw [hother hid]
      exact hs.kept id

theorem known_step (hwindow : 0 < window) (hs : s.Known maxRequests window) (e : Event String)
    (hkeeps : ∀ thread now clientId, e = .lock thread → s.readings thread = some (now, clientId) →
      s.Keeps window now clientId) : (s.step RateLimiter.check e).Known maxRequests window := by
  cases e with
  | tick d =>
    exact ⟨hs.maxRequests_eq, hs.window_eq, fun a ha => Nat.le_add_right_of_le (hs.past a ha),
      fun clientId => (lately_tick window s d clientId).trans (hs.kept clientId), hs.bounded⟩
  | read thread clientId =>
    simp only [step]
    split
    · exact ⟨hs.maxRequests_eq, hs.window_eq, hs.past, hs.kept, hs.bounded⟩
    · exact hs
  | lock thread =>
    cases hreading : s.readings thread with
    | none =>
      simp only [step, hreading]
      exact hs
    | some reading => exact known_lock hwindow hs hreading (hkeeps thread _ _ rfl hreading)

theorem known_run (hwindow : 0 < window) (hs : s.Known maxRequests window) {events : List (Event String)}
    (hlasting : s.Lasting RateLimiter.check window events) :
    (s.run RateLimiter.check events).Known maxRequests window := by
  induction events generalizing s with
  | nil => exact hs
  | cons e rest ih => exact ih (known_step hwindow hs e hlasting.1) hlasting.2

end Clients

/-! ### Without clients -/

section One
variable {maxRequests window : Nat}

/-- `try_acquire` as the threads call it. -/
def tryAcquire (l : Utils.RateLimiter) (now : Nat) (_ : Unit) : Bool × Utils.RateLimiter := l.tryAcquire now

/-- The limiter without clients as the one with clients that a single client asks. -/
def ofUtils (l : Utils.RateLimiter) : RateLimiter where
  maxRequests := l.maxRequests
  window := l.window
  requests clientId := if clientId = "" then l.requests else []

def Event.ofUtils : Event Unit → Event String
  | .tick d => .tick d
  | .read thread _ => .read thread ""
  | .lock thread => .lock thread

/-- The same threads, under the name of that client. -/
def named (s : Contention Utils.RateLimiter Unit) : Contention RateLimiter String where
  clock := s.clock
  readings u := (s.readings u).map fun r => (r.1, "")
  limiter := ofUtils s.limiter
  admitted := s.admitted.map fun a => ⟨a.reading, a.time, ""⟩

theorem check_ofUtils (l : Utils.RateLimiter) (now : Nat) :
    (ofUtils l).check now "" = ((l.tryAcquire now).1, ofUtils (l.tryAcquire now).2) := by
  have hset (requests : List Nat) : (ofUtils l).set "" requests = ofUtils { l with requests } := by
    unfold RateLimiter.set ofUtils
    congr 1
    funext id
    by_cases hid : id = "" <;> simp [hid]
  have hrecent : (ofUtils l).recent now "" = l.requests.filter fun t => now - t < l.window := rfl
  have hmax : (ofUtils l).maxRequests = l.maxRequests := rfl
  unfold RateLimiter.check Utils.RateLimiter.tryAcquire
  simp only [hset, hrecent, hmax]
  by_cases hroom : (l.requests.filter fun t => now - t < l.window).length < l.maxRequests
  · simp only [if_pos hroom]
  · simp only [if_neg hroom]

/-- A step of the threads is one of the threads with a name. -/
theorem named_step (s : Contention Utils.RateLimiter Unit) (e : Event Unit) :
    (s.step tryAcquire e).named = s.named.step RateLimiter.check e.ofUtils := by
  cases e with
  | tick d => rfl
  | read thread key =>
    simp only [step, Event.ofUtils]
    by_cases hidle : s.readings thread = none
    · have hidle' : s.named.readings thread = none := by simp [named, hidle]
      rw [if_pos hidle, if_pos hidle']
      simp only [named]
      congr 1
      funext u
      by_cases hu : u = thread <;> simp [hu]
    · have hidle' : s.named.readings thread ≠ none := by simpa [named] using hidle
      rw [if_neg hidle, if_neg hidle']
  | lock thread =>
    cases hreading : s.readings thread with
    | none =>
      have hreading' : s.named.readings thread = none := by simp [named, hreading]
      simp only [step, Event.ofUtils, hreading, hreading']
    | some reading =>
      have hreading' : s.named.readings thread = some (reading.1, "") := by simp [named, hreading]
      have hcheck : s.named.limiter.check reading.1 "" = _ := check_ofUtils s.limiter reading.1
      have htry : tryAcquire s.limiter reading.1 reading.2 = s.limiter.tryAcquire reading.1 := rfl
      rcases hacquired : s.limiter.tryAcquire reading.1 with ⟨admits, limiter⟩
      rw [hacquired] at hcheck htry
      simp only [step, Event.ofUtils, hreading, hreading', hcheck, htry]
      simp only [named]
      congr 1
      · funext u
        by_cases hu : u = thread <;> simp [hu]
      · cases admits <;> simp

theorem named_run (s : Contention Utils.RateLimiter Unit) (events : List (Event Unit)) :
    (s.run tryAcquire events).named = s.named.run RateLimiter.check (events.map Event.ofUtils) := by
  induction events generalizing s with
  | nil => rfl
  | cons e rest ih =>
    rw [run, List.foldl_cons, ← run, ih, named_step]
    rfl

theorem named_lasting {s : Contention Utils.RateLimiter Unit} {events : List (Event Unit)}
    (h : s.Lasting tryAcquire window events) :
    s.named.Lasting RateLimiter.check window (events.map Event.ofUtils) := by
  induction events generalizing s with
  | nil => trivial
  | cons e rest ih =>
    refine ⟨?_, named_step s e ▸ ih h.2⟩
    rintro thread now key he hreading a ha hkey hlate
    obtain ⟨b, hb, rfl⟩ := List.mem_map.mp ha
    obtain ⟨r, hr, hnow⟩ := Option.map_eq_some_iff.mp hreading
    cases e with
    | lock thread' =>
      cases he
      cases hnow
      exact h.1 thread r.1 r.2 rfl hr b hb rfl hlate
    | tick d => cases he
    | read thread' key' => cases he

end One

/-- No interval shorter than the window holds more admissions than the limit. -/
def BoundedAll (maxRequests window : Nat) (s : Contention L K) : Prop :=
  ∀ lo hi, hi < lo + window → (s.admitted.filter fun a => lo ≤ a.time ∧ a.time ≤ hi).length ≤ maxRequests

/-- **The limits hold under contention as long as no locked section drops a request that was
admitted less than a window before**: for every order of clock readings and locked sections. -/
theorem contention_bounded (maxRequests window : Nat) (hwindow : 0 < window) :
    (∀ events : List (Event String),
      (fresh (.new maxRequests window)).Lasting RateLimiter.check window events →
        RateLimiter.Bounded maxRequests window
          ((fresh (.new maxRequests window)).run RateLimiter.check events).log) ∧
    ∀ events : List (Event Unit), (fresh (.new maxRequests window)).Lasting tryAcquire window events →
      ((fresh (.new maxRequests window)).run tryAcquire events).BoundedAll maxRequests window := by
  constructor
  · exact fun events hlasting => (known_run hwindow (known_fresh maxRequests window) hlasting).bounded
  · intro events hlasting lo hi hlt
    have hfresh : (fresh (Utils.RateLimiter.new maxRequests window)).named = fresh (.new maxRequests window) := by
      simp [named, fresh, ofUtils, Utils.RateLimiter.new, RateLimiter.new]
    have hknown := known_run hwindow (known_fresh maxRequests window) (hfresh ▸ named_lasting hlasting)
    rw [← hfresh, ← named_run] at hknown
    have hcount := hknown.bounded "" lo hi hlt
    rw [log, named, List.map_map, List.filter_map, List.length_map] at hcount
    simpa [Function.comp_def] using hcount

/-- Two requests in a window of ten. The second thread is late, and what it has read is still behind the
first admission; the third request finds both. -/
def patient : List (Event String) :=
  [.read 0 "client", .lock 0, .tick 3, .read 1 "client", .tick 4, .lock 1, .read 0 "client", .tick 1, .lock 0]

theorem patient_bounded : ((fresh (.new 2 10)).run RateLimiter.check patient).log = [(0, "client"), (7, "client")] ∧
    RateLimiter.Bounded 2 10 ((fresh (.new 2 10)).run RateLimiter.check patient).log := by
  refine ⟨by decide, (contention_bounded 2 10 (by decide)).1 patient
    ⟨nofun, ?_, nofun, nofun, nofun, ?_, nofun, nofun, ?_, trivial⟩⟩ <;>
  · rintro thread now clientId hlock hreading
    cases hlock
    cases hreading
    unfold Keeps
    decide

/-- The first thread reads the clock at 0 and takes the lock at 9, the second does both at 10. -/
def late : List (Event String) :=
  [.read 0 "client", .tick 9, .lock 0, .tick 1, .read 1 "client", .lock 1]

/-- Of one request in a window of ten, two are admitted at 9 and at 10. -/
theorem late_admitted :
    ¬ RateLimiter.Bounded 1 10 ((fresh (.new 1 10)).run RateLimiter.check late).log ∧
      ¬ ((fresh (.new 1 10)).run tryAcquire
        [.read 0 (), .tick 9, .lock 0, .tick 1, .read 1 (), .lock 1]).BoundedAll 1 10 :=
  ⟨fun h => absurd (h "client" 9 10 (by decide)) (by decide), fun h => absurd (h 9 10 (by decide)) (by decide)⟩

end Contention

end XProtocol
