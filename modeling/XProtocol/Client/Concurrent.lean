import XProtocol.Async.Ledger
import XProtocol.Async.Mutex
import XProtocol.Client.Greeting
import XProtocol.Client.Progress

/-! Shared clients at work at the same time.

Any number of tasks call any number of clients, each behind its mutex. A client that
nobody holds rests: every answer on its stream has been read. Whoever holds it knows how
far its exchange has come (`Apart`), and no operation of another task changes that. So
what was proved of a client's methods for the one that holds it is true of every task
(`exchanges_apart`), and what a server finds in the bytes of a connection are messages that
were sent on it (`Wired`). -/
namespace XProtocol
open Async
open Json (Value Codec)
open Wire

/-- The messages sent on a connection. -/
def Conn.sentOn (conn : Conn) : List Frame := sentIn conn.log

/-- What can be read out of the bytes of the connection was sent on it. -/
def Wired (conn : Conn) : Prop := frames conn.written <+: conn.sentOn

section Wired
variable {conn : Conn}

@[simp] theorem sentOn_send (f : Frame) (bytes : Json.Bytes) :
    (conn.send f bytes).sentOn = conn.sentOn ++ [f] := by
  simp [Conn.sentOn, sentIn, Conn.send]

@[simp] theorem sentOn_receive (f : Frame) : (conn.receive f).sentOn = conn.sentOn := by
  simp [Conn.sentOn, sentIn, Conn.receive]

theorem wired_passive : Passive Wired where
  fresh _ := List.prefix_rfl
  split _ h := h
  take _ _ _ h := h
  receive conn f h := by
    unfold Wired
    rw [sentOn_receive]
    exact h

/-- Part of a message holds no other. -/
theorem frames_part {f : Frame} (hf : Fits f) {bytes : Json.Bytes} (hbytes : bytes <+: encode f) :
    frames bytes <+: [f] := by
  obtain ⟨more, hmore⟩ := hbytes
  cases hr : readMessage bytes with
  | message g rest =>
    have hall := readMessage_append hr more
    rw [hmore, readMessage_encode_self hf] at hall
    obtain ⟨rfl, hnil⟩ := Read.message.inj hall
    rw [frames_message hr, (List.append_eq_nil_iff.mp hnil.symm).1]
    exact List.prefix_rfl
  | short =>
    rw [frames_stop (by rw [hr]; nofun)]
    exact List.nil_prefix
  | invalid len rest =>
    rw [frames_stop (by rw [hr]; nofun)]
    exact List.nil_prefix

/-- A message that is sent behind whole ones leaves its connection wired, however much of it goes out. -/
theorem wired_send {before : List Frame} (hfits : ∀ g ∈ before, Fits g) (hwritten : conn.written = encodeAll before)
    (hsent : conn.sentOn = before) {f : Frame} (hf : Fits f) {bytes : Json.Bytes} (hbytes : bytes <+: encode f) :
    Wired (conn.send f bytes) := by
  unfold Wired
  rw [sentOn_send, hsent, show (conn.send f bytes).written = encodeAll before ++ bytes from
    congrArg (· ++ bytes) hwritten, frames_encodeAll hfits, List.prefix_append_right_inj]
  exact frames_part hf hbytes

end Wired

namespace UdsClient
variable (P : Peer)

/-- The messages `fs` went out on the connection, nothing else did, and every answer was read. -/
structure Clear (c : ConnId) (conn : Conn) (fs : List Frame) : Prop where
  settled : Settled P c conn fs
  sent : conn.sentOn = fs

/-- Client `i` opened the connection, and nothing is due on it. -/
def AtRest (n : Net) (i : Nat) (c : ConnId) : Prop := Owns n i c ∧ ∃ fs, Clear P c (n.conns c) fs

/-- The client's stream, when `c` is the connection its holder is at. -/
def streamAt : (stored : Bool) → ConnId → Option ConnId
  | true, c => some c
  | false, _ => none

/-- What the stage says of the client's stream and of the connections. -/
def HoldsAt (i : Nat) (u : UdsClient) (n : Net) : Stage → Prop
  | .calm => ∀ c, u.stream = some c → AtRest P n i c
  | .absent => u.stream = none
  | .ready stored c before => u.stream = streamAt stored c ∧ Owns n i c ∧ Clear P c (n.conns c) before
  | .amid stored c before f got => u.stream = streamAt stored c ∧ Owns n i c ∧
    Due P c (n.conns c) before f got ∧ (n.conns c).sentOn = before ++ [f]
  | .lost => ∀ c, u.stream = some c → Owns n i c

/-- The message has gone out as a whole, behind others that have. -/
structure Out (n : Net) (a : Asked) : Prop where
  opened : a.conn < n.opened
  fits : ∀ g ∈ a.before ++ [a.message], Fits g
  written : encodeAll (a.before ++ [a.message]) <+: (n.conns a.conn).written

variable {P} {n n' : Net} {i j : Nat} {u : UdsClient} {stage : Stage} {c : ConnId}

theorem Out.grows {a : Asked} (h : Out n a) (hn : n.Grows n') : Out n' a :=
  ⟨Nat.lt_of_lt_of_le h.opened hn.opened, h.fits, h.written.trans (hn.written _ h.opened)⟩

/-- A server that reads the connection comes to the message. -/
theorem Out.frames {a : Asked} (h : Out n a) : a.before ++ [a.message] <+: frames (n.conns a.conn).written := by
  obtain ⟨tail, htail⟩ := h.written
  rw [← htail, frames_encodeAll h.fits]
  exact List.prefix_append ..

theorem HoldsAt.rests (h : HoldsAt P i u n stage) (hr : stage.Rests P) : HoldsAt P i u n .calm := by
  intro c hc
  cases stage with
  | calm => exact h c hc
  | absent => cases hc.symm.trans h
  | ready stored d before =>
    cases stored with
    | false => cases hc.symm.trans h.1
    | true =>
      obtain rfl := Option.some.inj (hc.symm.trans h.1)
      exact ⟨h.2.1, before, h.2.2⟩
  | amid stored d before f got =>
    cases stored with
    | false => cases hc.symm.trans h.1
    | true =>
      obtain rfl := Option.some.inj (hc.symm.trans h.1)
      have hans := hr.resolve_left (by simp)
      exact ⟨h.2.1, before ++ [f], h.2.2.1.settled hans, h.2.2.2⟩
  | lost => exact hr.elim

/-- What is known of one client does not depend on what another's holder does. -/
theorem HoldsAt.spared (h : HoldsAt P j u n stage) (hs : Spares i n n') (hij : j ≠ i) : HoldsAt P j u n' stage := by
  cases stage with
  | calm =>
    intro c hc
    obtain ⟨howns, hclear⟩ := h c hc
    obtain ⟨howns', hsame⟩ := howns.spared hs hij
    exact ⟨howns', hsame ▸ hclear⟩
  | absent => exact h
  | ready stored c before =>
    obtain ⟨howns, hsame⟩ := h.2.1.spared hs hij
    exact ⟨h.1, howns, hsame ▸ h.2.2⟩
  | amid stored c before f got =>
    obtain ⟨howns, hsame⟩ := h.2.1.spared hs hij
    exact ⟨h.1, howns, hsame ▸ h.2.2⟩
  | lost => exact fun c hc => ((h c hc).spared hs hij).1

/-! ### One operation -/

variable (P) in
/-- What one operation does to what is known: the network's answer moves the knowledge, and the
other clients' connections are spared. -/
structure Advances (t i : Nat) (u : UdsClient) (k : Grasp) (n n' : Net) (moved : Grasp → Prop) : Prop where
  moves : ∃ k', moved k' ∧ HoldsAt P i u n' k'.stage ∧ (k.made = n.created t → k'.made = n'.created t) ∧
    ∀ a ∈ k'.asked, a ∈ k.asked ∨ Out n' a
  spares : Spares i n n'
  created : ∀ t' ≠ t, n'.created t' = n.created t'
  wired : (∀ d, Wired (n.conns d)) → ∀ d, Wired (n'.conns d)

section Operations
variable {t : Nat} {k : Grasp} {choice : Choice}

theorem wired_step {o : Net.Op} {r : o.Ret} (hwrite : ¬ ∃ c msgType payload, o = .write c msgType payload)
    (hp : n.perform t i o choice = some (r, n')) (hn : ∀ d, Wired (n.conns d)) (d : ConnId) : Wired (n'.conns d) :=
  perform_each wired_passive hn (fun c msgType payload _ ho _ _ => absurd ⟨c, msgType, payload, ho⟩ hwrite) hp d

theorem write_advances {msgType : UInt8} {payload : Json.Bytes} {r : Result Unit}
    (hh : HoldsAt P i u n k.stage) (hd : demandAt P k (.net (.write c msgType payload)))
    (hp : n.perform t i (.write c msgType payload) choice = some (r, n')) :
    Advances P t i u k n n' (moveAt P k (.net (.write c msgType payload)) r) := by
  obtain ⟨stored, before, hstage⟩ := hd
  rw [hstage] at hh
  obtain ⟨hstream, howns, hclear⟩ := hh
  have hbroken {n : Net} (h : Owns n i c) : HoldsAt P i u n (.broken stored) := by
    cases stored with
    | false => exact hstream
    | true =>
      intro d hd
      obtain rfl := Option.some.inj (hd.symm.trans hstream)
      exact h
  have hsends (hn : ∀ d, Wired (n.conns d)) : Sends Wired n (.write c msgType payload) := by
    rintro _ _ _ bytes ⟨⟩ hfits hbytes
    exact wired_send hclear.settled.fits hclear.settled.written hclear.sent hfits hbytes
  refine ⟨?_, ?_, ?_, fun hn d => perform_each wired_passive hn (hsends hn) hp d⟩
  · rcases Net.perform_write hp with ⟨-, rfl, rfl⟩ | ⟨hfits, rfl, rfl⟩ | ⟨-, ⟨text, rfl⟩, out, rfl⟩
    · exact ⟨_, ⟨stored, before, hstage, rfl⟩, hbroken howns, id, fun a ha => .inl ha⟩
    · have hpending := hclear.settled.send hfits
      refine ⟨_, ⟨stored, before, hstage, rfl⟩, ⟨hstream, owns_modify howns fun _ => rfl, ?_, ?_⟩, id, fun a ha => ?_⟩
      · rw [Net.modify_self]
        exact hpending.due
      · rw [Net.modify_self, sentOn_send, hclear.sent]
      · refine (List.mem_append.mp ha).imp_right fun ha => ?_
        obtain rfl := List.mem_singleton.mp ha
        refine ⟨howns.1, hpending.fits, ?_⟩
        rw [Net.modify_self]
        exact ⟨[], (List.append_nil _).trans hpending.written.symm⟩
    · exact ⟨_, ⟨stored, before, hstage, rfl⟩, hbroken (owns_modify howns fun _ => rfl), id, fun a ha => .inl ha⟩
  · rcases Net.perform_write hp with ⟨-, -, rfl⟩ | ⟨-, -, rfl⟩ | ⟨-, -, out, rfl⟩
    · exact Spares.refl ..
    · exact spares_modify howns _
    · exact spares_modify howns _
  · intro t' _
    rcases Net.perform_write hp with ⟨-, -, rfl⟩ | ⟨-, -, rfl⟩ | ⟨-, -, out, rfl⟩ <;> rfl

theorem read_advances (hP : P.Whole) {timed : Bool} {r : Timed (Result Frame)}
    (hh : HoldsAt P i u n k.stage) (hd : demandAt P k (.net (.read c timed)))
    (hsends : Honest P ⟨u, n⟩ (.net (.read c timed)) choice)
    (hp : n.perform t i (.read c timed) choice = some (r, n')) :
    Advances P t i u k n n' (moveAt P k (.net (.read c timed)) r) := by
  obtain ⟨stored, before, f, got, hstage⟩ := hd
  rw [hstage] at hh
  obtain ⟨hstream, howns, hdue, hsent⟩ := hh
  refine ⟨?_, ?_, ?_, wired_step (by simp) hp⟩
  · rcases Net.perform_read hp with ⟨g, rest, hread, rfl, rfl⟩ | ⟨hr, ahead, rfl⟩
    · have hnext := hdue.read (hP.fits c before f) (hsends ⟨g, rest, hread⟩) hread
      obtain ⟨more, hans, -⟩ := hnext.left
      refine ⟨_, ⟨stored, before, f, got, hstage, rfl, more, by simpa using hans⟩,
        ⟨hstream, owns_modify howns fun _ => rfl, ?_, ?_⟩, id, fun a ha => .inl ha⟩
      · rw [Net.modify_self]
        exact hnext
      · rw [Net.modify_self, sentOn_receive]
        exact hsent
    · refine ⟨{ k with stage := .broken stored }, ⟨stored, before, f, got, hstage, ?_⟩, ?_, id, fun a ha => .inl ha⟩
      · match r, hr with
        | .inTime (.ok g), hr => exact absurd rfl (hr g)
        | .inTime (.error _), _ => rfl
        | .elapsed, _ => rfl
      · cases stored with
        | false => exact hstream
        | true =>
          intro d hd
          obtain rfl := Option.some.inj (hd.symm.trans hstream)
          exact owns_modify howns fun _ => rfl
  · rcases Net.perform_read hp with ⟨g, rest, -, -, rfl⟩ | ⟨-, ahead, rfl⟩ <;> exact spares_modify howns _
  · intro t' _
    rcases Net.perform_read hp with ⟨g, rest, -, -, rfl⟩ | ⟨-, ahead, rfl⟩ <;> rfl

/-- **An operation on the network moves what the holder knows.** -/
theorem net_advances (hP : P.Whole) {o : Net.Op} {r : o.Ret} (hh : HoldsAt P i u n k.stage)
    (hd : demandAt P k (.net o)) (hsends : Honest P ⟨u, n⟩ (.net o) choice)
    (hp : n.perform t i o choice = some (r, n')) : Advances P t i u k n n' (moveAt P k (.net o) r) := by
  cases o with
  | connect timed =>
    have hstage : k.stage = .absent := hd
    rw [hstage] at hh
    rcases Net.perform_connect hp with ⟨rfl, rfl⟩ | ⟨hr, rfl⟩
    · refine ⟨⟨_, rfl, ⟨hh, ⟨Nat.lt_succ_self _, ?_⟩, ?_⟩, id, fun a ha => .inl ha⟩, spares_dial .., fun _ _ => rfl,
        wired_step (by simp) hp⟩
      · rw [Net.dial_conns_self]
        rfl
      · rw [Net.dial_conns_self]
        exact ⟨settled_fresh i, rfl⟩
    · refine ⟨⟨k, ?_, hstage ▸ hh, id, fun a ha => .inl ha⟩, Spares.refl .., fun _ _ => rfl, wired_step (by simp) hp⟩
      match r, hr with
      | .inTime (.ok c), hr => exact absurd rfl (hr c)
      | .inTime (.error _), _ => rfl
      | .elapsed, _ => rfl
  | split c =>
    obtain ⟨stored, before, hstage⟩ := hd
    have hwired := wired_step (by simp) hp
    obtain rfl := Net.perform_split hp
    rw [hstage] at hh
    obtain ⟨hstream, howns, hclear⟩ := hh
    refine ⟨⟨k, rfl, ?_, id, fun a ha => .inl ha⟩, spares_modify howns _, fun _ _ => rfl, hwired⟩
    rw [hstage]
    refine ⟨hstream, owns_modify howns fun _ => rfl, ?_⟩
    rw [Net.modify_self]
    exact ⟨hclear.settled.split, hclear.sent⟩
  | write c msgType payload => exact write_advances hh hd hp
  | read c timed => exact read_advances hP hh hd hsends hp
  | newRequest service method payload =>
    have hwired := wired_step (by simp) hp
    cases choice <;> simp [Net.perform] at hp
    obtain ⟨rfl, rfl⟩ := hp
    refine ⟨⟨_, ⟨rfl, _, _, rfl⟩, ?_, fun hmade => ?_, fun a ha => .inl ha⟩, spares_create i n t _, fun t' ht => ?_,
      hwired⟩
    · cases hstage : k.stage <;> rw [hstage] at hh <;> exact hh
    · show k.made ++ [_] = Function.update n.created t _ t
      rw [Function.update_self, ← hmade]
    · exact Function.update_of_ne ht ..

/-- An operation on the client's own fields moves the knowledge, too. -/
theorem own_advances {u' : UdsClient} {o : Op} {r : Fields.Ret o} (hh : HoldsAt P i u n k.stage)
    (hd : demandAt P k (.own o)) (hp : UdsClient.perform o choice u = some (r, u')) :
    ∃ k', moveAt P k (.own o) r k' ∧ HoldsAt P i u' n k'.stage ∧ k'.made = k.made ∧ k'.asked = k.asked := by
  have hkept (hstream : u'.stream = u.stream) : HoldsAt P i u' n k.stage := by
    cases hstage : k.stage <;> rw [hstage] at hh <;> simpa only [HoldsAt, hstream] using hh
  cases o with
  | stream =>
    cases choice <;> simp [UdsClient.perform] at hp
    obtain ⟨rfl, rfl⟩ := hp
    cases hs : u.stream with
    | none => exact ⟨_, rfl, hs, rfl, rfl⟩
    | some c =>
      obtain ⟨howns, before, hclear⟩ := hh.rests hd c hs
      exact ⟨_, ⟨before, rfl⟩, ⟨hs, howns, hclear⟩, rfl, rfl⟩
  | setStream s =>
    cases choice <;> simp [UdsClient.perform] at hp
    subst hp
    cases s with
    | none => exact ⟨_, rfl, rfl, rfl, rfl⟩
    | some c =>
      obtain ⟨before, f, hstage⟩ := hd
      rw [hstage] at hh
      obtain ⟨-, howns, hdue, hsent⟩ := hh
      exact ⟨_, ⟨before ++ [f], rfl⟩, ⟨rfl, howns, hdue.settled rfl, hsent⟩, rfl, rfl⟩
  | setConnected b =>
    cases choice <;> simp [UdsClient.perform] at hp
    subst hp
    exact ⟨_, rfl, hkept rfl, rfl, rfl⟩
  | setSession id =>
    cases choice <;> simp [UdsClient.perform] at hp
    subst hp
    exact ⟨_, rfl, hkept rfl, rfl, rfl⟩
  | panic => cases choice <;> cases hp

end Operations

end UdsClient

/-! ### The clients of a process -/

namespace SharedUdsClient
open UdsClient (Stage Asked Grasp progress demandAt moveAt HoldsAt Out Honest Spares)

/-- What a task knows: the client whose mutex it holds and how far its exchange has come, and
what the task has made and sent. -/
structure Party where
  inside : Option (Nat × Stage)
  made : List ServiceRequest
  asked : List Asked

/-- What the holder of a client knows, of what the task knows. -/
def Party.grasp (k : Party) (stage : Stage) : Grasp := ⟨stage, k.made, k.asked⟩

/-- What the task knows when it holds client `i`, whose holder knows `g`. -/
def party (i : Nat) (g : Grasp) : Party := ⟨some (i, g.stage), g.made, g.asked⟩

section
variable (P : Peer) (i : Nat)

def demandIn (k : Party) : Op → Prop
  | .lock => k.inside = none
  | .unlock => ∃ stage, k.inside = some (i, stage) ∧ stage.Rests P
  | .inner o => ∃ stage, k.inside = some (i, stage) ∧ demandAt P (k.grasp stage) o

def moveIn (k : Party) : (o : Op) → Calls.Ret o → Party → Prop
  | .lock, _, k' => k' = { k with inside := some (i, .calm) }
  | .unlock, _, k' => k' = { k with inside := none }
  | .inner o, r, k' => ∃ stage g, k.inside = some (i, stage) ∧ moveAt P (k.grasp stage) o r g ∧ k' = party i g

/-- The discipline of client `i`'s callers. -/
def taking : Discipline Calls Party := ⟨demandIn P i, moveIn P i⟩

variable {P} {k : Party}

/-- What the client's holder owes, a task owes that holds it. -/
theorem inner_taking {α : Type} {method : UdsClient.Code α} {Q : Grasp → Result α → Prop} {stage : Stage}
    (hk : k.inside = some (i, stage)) (h : Safe (progress P) method.run Q (k.grasp stage)) :
    Safe (taking P i) (method.run.embed (F := Calls) Op.inner fun _ r => r)
      (fun k' r => ∃ g, k' = party i g ∧ Q g r) k := by
  refine safe_embed ?_ ?_ h ?_
  · rintro g _ o rfl hd
    exact ⟨g.stage, rfl, hd⟩
  · rintro g _ o r k' rfl - ⟨stage, g', hin, hmove, rfl⟩
    obtain rfl : g.stage = stage := by simpa [party] using hin
    exact ⟨g', hmove, rfl⟩
  · obtain ⟨inside, made, asked⟩ := k
    exact congrArg (Party.mk · made asked) hk

/-- The holder gives the client back at rest. -/
theorem unlock_taking {g : Grasp} (hg : g.stage.Rests P) {Q : Party → Unit → Prop}
    (hQ : Q ⟨none, g.made, g.asked⟩ ()) : Safe (taking P i) (Program.op (E := Calls) .unlock) Q (party i g) := by
  refine (safe_op ..).mpr ⟨⟨g.stage, rfl, hg⟩, ?_⟩
  rintro _ _ rfl
  exact hQ

/-- A method that leaves the client at rest is safe behind the mutex. -/
theorem locked_taking {α : Type} {method : UdsClient.Code α} {Q : Party → Result α → Prop} (hk : k.inside = none)
    (h : Safe (progress P) method.run (fun g r => g.stage.Rests P ∧ Q ⟨none, g.made, g.asked⟩ r) (k.grasp .calm)) :
    Safe (taking P i) (locked method) Q k := by
  unfold locked
  rw [safe_bind]
  refine (safe_op ..).mpr ⟨hk, ?_⟩
  rintro _ _ rfl
  rw [safe_bind]
  refine safe_mono (inner_taking i rfl h) ?_
  rintro _ r ⟨g, rfl, hrests, hQ⟩
  rw [safe_bind]
  exact unlock_taking i hrests hQ

end

/-! ### What is asked of a client -/

/-- A method of the shared client. -/
inductive Job where
  | call (service method : String) (payload : Value)
  | callStreaming (service method : String) (payload : Value) (mode : StreamMode) (fuel : Nat)
  | getSchema
  | close

/-- The method behind the mutex. -/
def Job.inner : Job → UdsClient.Job
  | .call service method payload => .call service method payload
  | .callStreaming service method payload mode fuel => .callStreaming service method payload mode fuel
  | .getSchema => .getSchema
  | .close => .close

section
variable (S : Codec)

/-- `call_streaming`, for `fuel` messages of its stream. A caller that is not at the end of the
stream by then is still reading, and has the mutex. -/
def streaming (service method : String) (payload : Value) (mode : StreamMode) (fuel : Nat) :
    Program Calls (Result (Option (List StreamMessage))) := do
  let _ ← Program.op (E := Calls) .lock
  let r ← (UdsClient.callStreaming S service method payload mode fuel).run.embed (F := Calls) Op.inner fun _ r => r
  match r with
  | .ok none => do
    nomatch ← Program.op (E := Calls) (.inner (.own .panic))
  | r => do
    let _ ← Program.op (E := Calls) .unlock
    return r

def Job.task : Job → Program Calls UdsClient.Outcome
  | .call service method payload => UdsClient.Outcome.reply <$> SharedUdsClient.call S service method payload
  | .callStreaming service method payload mode fuel =>
    UdsClient.Outcome.stream <$> streaming S service method payload mode fuel
  | .getSchema => UdsClient.Outcome.schema <$> SharedUdsClient.getSchema S
  | .close => UdsClient.Outcome.done <$> SharedUdsClient.close

variable {P : Peer} {i : Nat} {k : Party}

/-- What a task of its own ends with: the reply to its own message, and no client. -/
def Party.Replied (P : Peer) (S : Codec) (made : List ServiceRequest) (k : Party) (job : Job)
    (outcome : UdsClient.Outcome) : Prop :=
  k.inside = none ∧ (k.grasp .calm).Replied P S made job.inner outcome

theorem rested_calm (k : Party) : (k.grasp .calm).Rested P k.made := ⟨rfl, trivial⟩

theorem safe_outcome {D : Discipline Calls Party} {α : Type} {p : Program Calls α} {f : α → UdsClient.Outcome}
    {Q : Party → UdsClient.Outcome → Prop} (h : Safe D p (fun k a => Q k (f a)) k) : Safe D (f <$> p) Q k := by
  rw [map_eq_pure_bind, safe_bind]
  exact h

theorem call_taking (hP : P.Whole) (hk : k.inside = none) (service method : String) (payload : Value) :
    Safe (taking P i) (call S service method payload)
      (fun k' r => k'.Replied P S k.made (.call service method payload) (.reply r)) k := by
  refine locked_taking i hk (safe_mono (UdsClient.request_progress S hP (rested_calm k) fun g hg =>
    UdsClient.doCallInternal_progress S hP hg service method payload) fun g r hr => ?_)
  cases r with
  | ok response => exact ⟨hr.1, rfl, hr.2⟩
  | error e => exact ⟨hr, rfl, trivial⟩

theorem getSchema_taking (hP : P.Whole) (hk : k.inside = none) :
    Safe (taking P i) (getSchema S) (fun k' r => k'.Replied P S k.made .getSchema (.schema r)) k := by
  refine locked_taking i hk (safe_mono (UdsClient.request_progress S hP (rested_calm k) fun g hg =>
    UdsClient.doGetSchemaInternal_progress S hP hg) fun g r hr => ?_)
  cases r with
  | ok schema => exact ⟨hr.1, rfl, hr.2⟩
  | error e => exact ⟨hr, rfl, trivial⟩

omit S in
theorem close_taking (hk : k.inside = none) : Safe (taking P i) close (fun k' _ => k'.inside = none) k := by
  refine locked_taking i hk (safe_mono (UdsClient.close_progress (k.grasp .calm)) fun g r hr => ?_)
  cases r <;> exact ⟨hr, rfl⟩

theorem streaming_taking (hP : P.Whole) (hk : k.inside = none) (service method : String) (payload : Value)
    (mode : StreamMode) (fuel : Nat) :
    Safe (taking P i) (streaming S service method payload mode fuel)
      (fun k' r => k'.Replied P S k.made (.callStreaming service method payload mode fuel) (.stream r)) k := by
  unfold streaming
  rw [safe_bind]
  refine (safe_op ..).mpr ⟨hk, ?_⟩
  rintro _ _ rfl
  rw [safe_bind]
  have h := UdsClient.request_progress S hP (rested_calm k) fun g hg =>
    UdsClient.doCallStreamingInternal_progress S hP hg service method payload mode fuel
  refine safe_mono (inner_taking i rfl h) ?_
  rintro _ r ⟨g, rfl, hr⟩
  match r, hr with
  | .ok none, _ => exact ⟨⟨g.stage, rfl, trivial⟩, fun r => nomatch r⟩
  | .ok (some messages), hr =>
    obtain ⟨hrests, hreplied⟩ := hr messages rfl
    show Safe _ (_ >>= _) _ _
    rw [safe_bind]
    exact unlock_taking i hrests ⟨rfl, hreplied⟩
  | .error e, hr =>
    show Safe _ (_ >>= _) _ _
    rw [safe_bind]
    exact unlock_taking i hr ⟨rfl, trivial⟩

theorem task_taking (hP : P.Whole) (hk : k.inside = none) (job : Job) :
    Safe (taking P i) (job.task S) (fun k' outcome => k'.Replied P S k.made job outcome) k := by
  cases job with
  | call service method payload => exact safe_outcome (call_taking S hP hk service method payload)
  | callStreaming service method payload mode fuel =>
    exact safe_outcome (streaming_taking S hP hk service method payload mode fuel)
  | getSchema => exact safe_outcome (getSchema_taking S hP hk)
  | close => exact safe_outcome (safe_mono (close_taking hk) fun _ _ h => ⟨h, trivial⟩)

end

/-! ### All clients at once -/

/-- Every client rests, or the task that holds it knows how far its exchange has come; and the
tasks know what they have made and sent. -/
structure Apart (P : Peer) (w : Clients) (γ : Nat → Party) : Prop where
  sheltered : Sheltered w.holder (fun t => (γ t).inside) (fun i => HoldsAt P i (w.client i) w.net .calm)
    fun i stage => HoldsAt P i (w.client i) w.net stage
  made : ∀ t, (γ t).made = w.net.created t
  asked : ∀ t, ∀ a ∈ (γ t).asked, Out w.net a
  wired : ∀ c, Wired (w.net.conns c)

/-- A message that a client reads is one the peer has sent. -/
def HonestAt (P : Peer) (w : Clients) (i : Nat) : Op → Choice → Prop
  | .inner o, choice => Honest P ⟨w.client i, w.net⟩ o choice
  | _, _ => True

instance (P : Peer) (w : Clients) (i : Nat) (o : Op) (choice : Choice) : Decidable (HonestAt P w i o choice) :=
  match o with
  | .inner o => inferInstanceAs (Decidable (Honest P ⟨w.client i, w.net⟩ o choice))
  | .lock | .unlock => isTrue trivial

section
variable {P : Peer} {w w' : Clients} {γ : Nat → Party} {t i : Nat}

theorem apart_new (P : Peer) : Apart P .new fun _ => ⟨none, [], []⟩ where
  sheltered := .idle fun _ _ hc => nomatch hc
  made _ := rfl
  asked _ _ ha := nomatch ha
  wired _ := wired_passive.fresh 0

theorem inside_update (γ : Nat → Party) (t : Nat) (k : Party) :
    (fun u => (Function.update γ t k u).inside) = Function.update (fun u => (γ u).inside) t k.inside := by
  funext u
  by_cases hu : u = t
  · subst hu
    simp
  · simp [hu]

/-- A task takes or leaves a client, and nothing else changes. -/
theorem Apart.passes (h : Apart P w γ) {x : Option Nat} {inside : Option (Nat × Stage)}
    (hs : Sheltered (Function.update w.holder i x) (Function.update (fun u => (γ u).inside) t inside)
      (fun i => HoldsAt P i (w.client i) w.net .calm) fun i stage => HoldsAt P i (w.client i) w.net stage) :
    Apart P (w.setHolder i x) (Function.update γ t { γ t with inside }) := by
  refine ⟨inside_update γ t _ ▸ hs, fun u => ?_, fun u => ?_, h.wired⟩
  · by_cases hu : u = t
    · subst hu
      rw [Function.update_self]
      exact h.made u
    · rw [Function.update_of_ne hu]
      exact h.made u
  · by_cases hu : u = t
    · subst hu
      rw [Function.update_self]
      exact h.asked u
    · rw [Function.update_of_ne hu]
      exact h.asked u

/-- The holder of a client moves. -/
theorem Apart.moves (h : Apart P w γ) {stage : Stage} (hin : (γ t).inside = some (i, stage)) {u : UdsClient} {n : Net}
    (hn : w.net.Grows n) (hspares : Spares i w.net n) (hcreated : ∀ t' ≠ t, n.created t' = w.net.created t')
    (hwired : ∀ c, Wired (n.conns c)) {g : Grasp} (hg : HoldsAt P i u n g.stage) (hmade : g.made = n.created t)
    (hasked : ∀ a ∈ g.asked, Out n a) :
    Apart P { w.setClient i u with net := n } (Function.update γ t (party i g)) := by
  have hself : ({ w.setClient i u with net := n } : Clients).client i = u := Function.update_self ..
  have hother (j : Nat) (hj : j ≠ i) : ({ w.setClient i u with net := n } : Clients).client j = w.client j :=
    Function.update_of_ne hj ..
  refine ⟨?_, fun v => ?_, fun v a ha => ?_, hwired⟩
  · rw [inside_update]
    refine h.sheltered.moves hin (fun j hj hrest => ?_) (fun j hj s hs => ?_) ?_
    · rw [hother j hj]
      exact hrest.spared hspares hj
    · rw [hother j hj]
      exact hs.spared hspares hj
    · rw [hself]
      exact hg
  · by_cases hv : v = t
    · subst hv
      rw [Function.update_self]
      exact hmade
    · rw [Function.update_of_ne hv, h.made v]
      exact (hcreated v hv).symm
  · by_cases hv : v = t
    · subst hv
      rw [Function.update_self] at ha
      exact hasked a ha
    · rw [Function.update_of_ne hv] at ha
      exact (h.asked v a ha).grows hn

/-- **Every operation on a shared client keeps the exchanges apart.** -/
theorem perform_apart (hP : P.Whole) (h : Apart P w γ) {o : Op} {choice : Choice} {r : Calls.Ret o}
    (hd : demandIn P i (γ t) o) (hhonest : HonestAt P w i o choice) (hstep : w.perform t i o choice = some (r, w')) :
    ∃ k, moveIn P i (γ t) o r k ∧ Apart P w' (Function.update γ t k) := by
  cases o with
  | lock =>
    cases choice <;> simp [Clients.perform] at hstep
    obtain ⟨hfree, rfl⟩ := hstep
    exact ⟨_, rfl, h.passes (h.sheltered.enters hfree hd id)⟩
  | unlock =>
    cases choice <;> simp [Clients.perform] at hstep
    subst hstep
    obtain ⟨stage, hin, hrests⟩ := hd
    exact ⟨_, rfl, h.passes (h.sheltered.leaves hin fun hs => hs.rests hrests)⟩
  | inner o =>
    obtain ⟨stage, hin, hd⟩ := hd
    have hholds : HoldsAt P i (w.client i) w.net ((γ t).grasp stage).stage := h.sheltered.holds hin
    cases o with
    | net o =>
      simp only [Clients.perform, Option.map_eq_some_iff] at hstep
      obtain ⟨⟨r', n⟩, hn, hstep⟩ := hstep
      obtain ⟨rfl, rfl⟩ := Prod.mk.inj hstep
      obtain ⟨⟨g, hmove, hg, hmade, hasked⟩, hspares, hcreated, hwired⟩ :=
        UdsClient.net_advances hP hholds hd hhonest hn
      refine ⟨party i g, ⟨stage, g, hin, hmove, rfl⟩, ?_⟩
      have hmoved := h.moves hin (perform_grows hn) hspares hcreated (hwired h.wired) hg (hmade (h.made t))
        fun a ha => (hasked a ha).elim (fun ha => (h.asked t a ha).grows (perform_grows hn)) id
      simpa [Clients.setClient] using hmoved
    | own o =>
      simp only [Clients.perform, Option.map_eq_some_iff] at hstep
      obtain ⟨⟨r', u⟩, hu, hstep⟩ := hstep
      obtain ⟨rfl, rfl⟩ := Prod.mk.inj hstep
      obtain ⟨g, hmove, hg, hmade, hasked⟩ := UdsClient.own_advances hholds hd hu
      refine ⟨party i g, ⟨stage, g, hin, hmove, rfl⟩, ?_⟩
      refine h.moves hin (.refl _) (Spares.refl ..) (fun _ _ => rfl) h.wired hg (hmade.trans (h.made t)) fun a ha => ?_
      rw [hasked] at ha
      exact h.asked t a ha

end

/-! ### Any number of callers -/

/-- The operations of many clients: on which, and what. -/
abbrev Many : Interface := ⟨Nat × Op, fun o => Calls.Ret o.2⟩

/-- The clients of a process as a machine. -/
def machine : Machine Many Clients Choice where
  perform t o choice w := w.perform t o.1 o.2 choice

/-- New clients, and what is asked of them: of each task one method of a client. -/
def start (S : Codec) (jobs : List (Nat × Job)) : Config Many Clients UdsClient.Outcome :=
  ⟨.new, jobs.map fun j => (j.2.task S).embed (F := Many) (Prod.mk j.1) fun _ r => r⟩

/-- What a read takes off a connection, if it is a message, the peer has sent. -/
def Candid (P : Peer) (w : Clients) (_ : Nat) (o : Nat × Op) (choice : Choice) : Prop := HonestAt P w o.1 o.2 choice

instance (P : Peer) (w : Clients) (t : Nat) (o : Nat × Op) (choice : Choice) : Decidable (Candid P w t o choice) :=
  inferInstanceAs (Decidable (HonestAt P w o.1 o.2 choice))

/-- The discipline of the callers of all clients, from that of each client's. -/
def among {G : Type} (T : Nat → Discipline Calls G) : Discipline Many G where
  demand k o := (T o.1).demand k o.2
  move k o r k' := (T o.1).move k o.2 r k'

/-- Operations on many clients keep the exchanges apart. -/
theorem apart_upheld {P : Peer} (hP : P.Whole) : Upheld machine (among (taking P)) (Candid P) (Apart P) :=
  fun _ _ _ _ _ _ _ h hd hcandid hstep => perform_apart hP h hd hcandid hstep

/-- The message `f` has gone out behind others, and `got` is the peer's whole answer to it there. -/
def Answered (P : Peer) (n : Net) (f : Frame) (got : List Frame) : Prop :=
  ∃ c before, Out n ⟨c, before, f⟩ ∧ P.answers c before f = got

theorem Apart.answered {P : Peer} {w : Clients} {γ : Nat → Party} (h : Apart P w γ) {t : Nat} {f : Frame}
    {got : List Frame} (htold : ((γ t).grasp .calm).Told P f got) : Answered P w.net f got := by
  obtain ⟨c, before, hasked, hans⟩ := htold
  exact ⟨c, before, h.asked t _ hasked, hans⟩

/-- The message that an operation with this answer has sent whole, and what had been sent before it. -/
def sends (w : Clients) : (o : Nat × Op) → Calls.Ret o.2 → List Asked
  | (_, .inner (.net (.write c msgType payload))), .ok _ =>
    [⟨c, frames (w.net.conns c).written, ⟨msgType, payload⟩⟩]
  | _, _ => []

/-- The clients of a process, with the messages that each task has sent. -/
abbrev posting : Machine Many (Clients × (Nat → List Asked)) Choice := machine.noting sends

/-- New clients, and nothing sent. -/
def startPosting (S : Codec) (jobs : List (Nat × Job)) : Config Many (Clients × (Nat → List Asked)) UdsClient.Outcome :=
  (start S jobs).withLedger fun _ => []

/-- Every run of the clients is one in which this is noted. -/
theorem run_posting {S : Codec} {jobs : List (Nat × Job)} {run : List (Nat × Choice)}
    {s : Config Many Clients UdsClient.Outcome} (h : (start S jobs).run machine run = some s) :
    ∃ posted, (startPosting S jobs).run posting run = some (s.withLedger posted) :=
  Config.run_noting sends h _

/-- A task learns of what it sends as it goes out. -/
theorem asked_moveAt {P : Peer} {k k' : Grasp} {i : Nat} {w : Clients} {o : NetOp UdsClient.Fields}
    {r : (NetWith UdsClient.Fields).Ret o} (hh : HoldsAt P i (w.client i) w.net k.stage) (hm : moveAt P k o r k') :
    k'.asked = k.asked ++ sends w (i, .inner o) r := by
  cases o with
  | own o =>
    cases o with
    | stream =>
      cases r with
      | none => exact hm ▸ (List.append_nil _).symm
      | some c =>
        obtain ⟨before, rfl⟩ := hm
        exact (List.append_nil _).symm
    | setStream s =>
      cases s with
      | none => exact hm ▸ (List.append_nil _).symm
      | some c =>
        obtain ⟨before, rfl⟩ := hm
        exact (List.append_nil _).symm
    | _ => exact hm ▸ (List.append_nil _).symm
  | net o =>
    cases o with
    | write c msgType payload =>
      obtain ⟨stored, before, hstage, hm⟩ := hm
      cases r with
      | error e => exact hm ▸ (List.append_nil _).symm
      | ok _ =>
        rw [hstage] at hh
        have hsettled := hh.2.2.settled
        subst hm
        show k.asked ++ [_] = k.asked ++ [⟨c, frames (w.net.conns c).written, _⟩]
        rw [hsettled.written, frames_encodeAll_self hsettled.fits]
    | read c timed =>
      obtain ⟨stored, before, f, got, -, hm⟩ := hm
      split at hm
      · exact hm.1 ▸ (List.append_nil _).symm
      · exact hm ▸ (List.append_nil _).symm
    | newRequest service method payload => exact hm.1 ▸ (List.append_nil _).symm
    | connect timed =>
      rcases r with (text | c) | _ <;> exact hm ▸ (List.append_nil _).symm
    | split c => exact hm ▸ (List.append_nil _).symm

/-- What the tasks know that they have sent is what they have sent. -/
theorem posting_upheld {P : Peer} (hP : P.Whole) : Upheld posting (among (taking P)) (fun w => Candid P w.1)
    fun w γ => Apart P w.1 γ ∧ ∀ t, (γ t).asked = w.2 t := by
  rintro ⟨w, posted⟩ γ t ⟨i, o⟩ choice r w' ⟨h, hposted⟩ hd hcandid hstep
  obtain ⟨⟨r', v⟩, hv, heq⟩ := Option.map_eq_some_iff.mp hstep
  cases heq
  obtain ⟨k, hmove, hapart⟩ := perform_apart hP h hd hcandid hv
  have hasked : k.asked = posted t ++ sends w (i, o) r' := by
    rw [← show (γ t).asked = posted t from hposted t]
    cases o with
    | lock | unlock =>
      obtain rfl := hmove
      exact (List.append_nil _).symm
    | inner o =>
      obtain ⟨stage, g, hin, hmove, rfl⟩ := hmove
      exact asked_moveAt (k := (γ t).grasp stage) (h.sheltered.holds hin) hmove
  refine ⟨k, hmove, hapart, ?_⟩
  refine (Function.forall_update_iff γ fun u k => k.asked = Function.update posted t _ u).mpr ⟨?_, fun u hu => ?_⟩
  · rw [Function.update_self]
    exact hasked
  · rw [Function.update_of_ne hu]
    exact hposted u

/-- Among the messages that a task has sent is `f`, and `got` is the peer's whole answer to it there. -/
def Told (P : Peer) (n : Net) (posted : List Asked) (f : Frame) (got : List Frame) : Prop :=
  ∃ a ∈ posted, a.message = f ∧ Out n a ∧ P.answers a.conn a.before f = got

/-- **Shared clients keep their replies apart.** However the operations of many tasks on many
clients are interleaved, nothing is outstanding or unread on the stream of a client that nobody
holds, and what a task returns, if it is no error, is decoded from the reply to a message that
this task has sent. -/
theorem exchanges_apart (S : Codec) {P : Peer} (hP : P.Whole) (jobs : List (Nat × Job)) (run : List (Nat × Choice))
    (s : Config Many (Clients × (Nat → List Asked)) UdsClient.Outcome)
    (hrun : (startPosting S jobs).run posting run = some s)
    (hcandid : (startPosting S jobs).Along posting (Config.Performs fun w => Candid P w.1) run) :
    (∀ i c, s.world.1.holder i = none → (s.world.1.client i).stream = some c →
      ∃ fs, Settled P c (s.world.1.net.conns c) fs) ∧
    ∀ t i job outcome, jobs[t]? = some (i, job) → s.returned t = some outcome →
      UdsClient.RepliedBy S (fun request => s.world.1.net.created t = [request])
        (Told P s.world.1.net (s.world.2 t)) job.inner outcome := by
  -- the task of each job, safe with what it is to end with
  have hsafe (t i : Nat) (job : Job) (ht : jobs[t]? = some (i, job)) :
      Safe (among (taking P)) ((job.task S).embed (F := Many) (Prod.mk i) fun _ r => r)
        (fun k outcome => ∀ i job, jobs[t]? = some (i, job) → k.Replied P S [] job outcome) ⟨none, [], []⟩ := by
    refine safe_mono (safe_embed (D := taking P i) (fun _ _ _ h hd => h ▸ hd)
      (fun g k o r k' hgk _ hm => ⟨k', hgk ▸ hm, rfl⟩)
      (task_taking (k := ⟨none, [], []⟩) S hP rfl job) rfl) ?_
    rintro k outcome ⟨_, rfl, hreplied⟩ i' job' ht'
    obtain ⟨rfl, rfl⟩ := Prod.mk.inj (Option.some.inj (ht.symm.trans ht'))
    exact hreplied
  have hkept : Kept (among (taking P)) (fun w γ => Apart P w.1 γ ∧ ∀ t, (γ t).asked = w.2 t)
      (fun t k outcome => ∀ i job, jobs[t]? = some (i, job) → k.Replied P S [] job outcome) (startPosting S jobs) := by
    refine ⟨fun _ => ⟨none, [], []⟩, ⟨apart_new P, fun _ => rfl⟩, fun t p hp => ?_⟩
    obtain ⟨⟨i, job⟩, ht, rfl⟩ := Option.map_eq_some_iff.mp ((List.getElem?_map ..).symm.trans hp)
    exact hsafe t i job ht
  have hend := run_safe (posting_upheld hP) hrun hcandid hkept
  refine ⟨fun i c hfree hc => ?_, fun t i job outcome ht hreturned => ?_⟩
  · obtain ⟨γ, ⟨hapart, -⟩, -⟩ := hend
    obtain ⟨-, fs, hclear⟩ := hapart.sheltered.free i hfree c hc
    exact ⟨fs, hclear.settled⟩
  · obtain ⟨γ, ⟨hapart, hposted⟩, hreplied⟩ := hend.returned hreturned
    refine (hreplied i job ht).2.mono (fun request hmade => (hapart.made t).symm.trans hmade) ?_
    rintro f got ⟨c, before, hasked, hans⟩
    exact ⟨⟨c, before, f⟩, hposted t ▸ hasked, rfl, hapart.asked t _ hasked, hans⟩

/-! Three callers of two clients, two of them of the same. -/

section Sample
open Json.Text (compact)
open UdsClient (streamer streamer_whole chunk finish)

def watch : Job := .callStreaming "echo" "watch" (.object []) .values 3

/-- Task `t` asks for a stream, with the id `id`, and reads it to its end. -/
def watches (t : Nat) (id : String) : List (Nat × Choice) :=
  [(t, .uuids id id)] ++ goes t 1 ++
    [(t, .arrive (encodeAll [⟨msgStreamStart, []⟩, chunk, finish])), (t, .arrive []), (t, .arrive [])] ++ goes t 1

def crowded : List (Nat × Choice) :=
  goes 0 5 ++ goes 2 5 ++ [(2, .arrive (encode EchoServer.ack)), (0, .arrive (encode EchoServer.ack))] ++ goes 0 5 ++
    watches 0 "a" ++ goes 1 4 ++ watches 1 "b"

/-- How many messages the stream had that task `t` has returned. -/
def watched (s : Config Many (Clients × (Nat → List Asked)) UdsClient.Outcome) (t : Nat) : Option Nat :=
  match s.returned t with
  | some (.stream (.ok (some messages))) => some messages.length
  | _ => none

theorem watched_eq_some {s : Config Many (Clients × (Nat → List Asked)) UdsClient.Outcome} {t n : Nat} (h : watched s t = some n) :
    ∃ messages, s.returned t = some (.stream (.ok (some messages))) ∧ messages.length = n := by
  unfold watched at h
  split at h
  · next messages hr => exact ⟨messages, hr, Option.some.inj h⟩
  · cases h

/-- The second caller of a client, of which the theorem speaks. -/
theorem exchanges_apart_crowded : ∃ s messages,
    (startPosting compact [(0, watch), (0, watch), (1, watch)]).run posting crowded = some s ∧
      s.returned 1 = some (.stream (.ok (some messages))) ∧ messages.length = 1 ∧
      UdsClient.RepliedBy compact (fun request => s.world.1.net.created 1 = [request])
        (Told streamer s.world.1.net (s.world.2 1)) watch.inner (.stream (.ok (some messages))) := by
  have hend : ((startPosting compact [(0, watch), (0, watch), (1, watch)]).run posting crowded).bind (watched · 1) =
      some 1 := by
    decide +kernel
  obtain ⟨s, hrun, hs⟩ := Option.bind_eq_some_iff.mp hend
  obtain ⟨messages, hreturned, hlength⟩ := watched_eq_some hs
  have hreplied := (exchanges_apart compact streamer_whole [(0, watch), (0, watch), (1, watch)] crowded s hrun
    (Config.along_of_checks (by decide +kernel))).2 1 0 watch _ rfl hreturned
  exact ⟨s, messages, hrun, hreturned, hlength, hreplied⟩

end Sample

end SharedUdsClient

end XProtocol
