import XProtocol.Client.Exchange

/-! A client that nothing disturbs.

When nothing fails and no timer fires, and the peer answers each message with one that
fits, every operation of the client goes through: a connection is greeted and a call
returns what its answer decodes to. So a call is what the peer makes of its request
(`call_sure`), and it returns, however the bytes are cut up on the way. -/
namespace XProtocol.UdsClient
open Async
open Json (Value Codec)
open Wire

/-- The n-th request that is made is the n-th of `requests`. -/
def Draws (requests : List ServiceRequest) (w : Client UdsClient) : NetOp Fields → Choice → Prop
  | .net (.newRequest service method payload), .uuids requestId correlationId =>
    requests[(w.net.created 0).length]? = some (.new requestId correlationId service method payload)
  | _, _ => True

/-- A client that nothing disturbs, connected to `P`. -/
def undisturbed (P : Peer) (requests : List ServiceRequest) :
    Discipline (NetWith Fields) (Client UdsClient) :=
  machine.sure fun w o choice => Smooth P w o choice ∧ Draws requests w o choice

section Operations
variable {P : Peer} {requests : List ServiceRequest} {w : Client UdsClient} {c : ConnId}
  {before : List Frame} {f : Frame} {R : Client UdsClient → ProtocolError → Prop}

theorem own_sure {o : Op} {Q : Client UdsClient → Fields.Ret o → Prop} {r : Fields.Ret o} {u : UdsClient}
    (hu : perform o .go w.fields = some (r, u)) (h : Q ⟨u, w.net⟩ r) :
    Meets (undisturbed P requests) (own o) Q R w := by
  have hperform : machine.perform 0 (.own o) .go w = some (r, ⟨u, w.net⟩) :=
    congrArg (Option.map _) hu
  refine (meets_own o Q).mpr ⟨⟨.go, _, ⟨trivial, trivial⟩, hperform⟩, ?_⟩
  rintro r' w' ⟨choice, -, hperform'⟩
  have hgo : choice = .go := by
    obtain ⟨x, hx, -⟩ := Option.map_eq_some_iff.mp hperform'
    cases o <;> cases choice <;> first | rfl | cases hx
  subst hgo
  cases hperform.symm.trans hperform'
  exact h

/-- An operation on the network for which one choice is left, or any choice has the same effect. -/
theorem net_sure {o : Net.Op} {Q : Client UdsClient → o.Ret → Prop} (choice : Choice) {x : o.Ret × Net}
    (hchoice : Smooth P w (.net o) choice ∧ Draws requests w (.net o) choice)
    (hx : w.net.perform 0 0 o choice = some x)
    (h : ∀ choice r n, Smooth P w (.net o) choice → Draws requests w (.net o) choice →
      w.net.perform 0 0 o choice = some (r, n) → Q { w with net := n } r) :
    Safe (undisturbed P requests) (Program.op (E := NetWith Fields) (.net o)) Q w := by
  refine (safe_op ..).mpr ⟨⟨choice, _, hchoice, congrArg (Option.map _) hx⟩, ?_⟩
  rintro r w' ⟨choice', ⟨hsmooth, hdraws⟩, hperform⟩
  obtain ⟨⟨r, n⟩, hn, heq⟩ := Option.map_eq_some_iff.mp hperform
  cases heq
  exact h choice' r n hsmooth hdraws hn

theorem dial_sure (w : Client UdsClient) :
    Meets (undisturbed P requests) dial (fun w' c => c = w.net.opened ∧ w' = { w with net := w.net.dial 0 })
      R w := by
  unfold dial
  rw [meets_bind]
  refine meets_lift.mpr (net_sure .go ⟨trivial, trivial⟩ rfl fun choice r n hsmooth _ hn => ?_)
  cases choice <;> first | exact hsmooth.elim | skip
  cases hn
  exact ⟨rfl, rfl⟩

theorem split_sure (h : Settled P c (w.net.conns c) before) :
    Meets (undisturbed P requests) (.split c : Code Unit)
      (fun w' _ => Touches c w w' ∧ Settled P c (w'.net.conns c) before) R w := by
  refine meets_lift.mpr (net_sure .go ⟨trivial, trivial⟩ rfl fun choice r n _ _ hn => ?_)
  obtain rfl := Net.perform_split hn
  exact ⟨touches_modify c _ w, by rw [Net.modify_self]; exact h.split⟩

theorem newRequest_sure {requestId correlationId service method : String} {payload : Value}
    (h : requests[(w.net.created 0).length]? =
      some (.new requestId correlationId service method payload)) :
    Meets (undisturbed P requests) (.newRequest service method payload : Code ServiceRequest)
      (fun w' r => r = .new requestId correlationId service method payload ∧
        w' = { w with net := w.net.create 0 r }) R w := by
  refine meets_lift.mpr (net_sure (.uuids requestId correlationId) ⟨trivial, h⟩ rfl
    fun choice r n hsmooth hdraws hn => ?_)
  cases choice <;> first | exact hsmooth.elim | skip
  cases hn
  exact ⟨Option.some.inj (hdraws.symm.trans h), rfl⟩

theorem write_sure {msgType : UInt8} {payload : Json.Bytes} (h : Settled P c (w.net.conns c) before)
    (hfits : Fits ⟨msgType, payload⟩) :
    Meets (undisturbed P requests) (.write c msgType payload : Code Unit)
      (fun w' _ => Touches c w w' ∧ Pending P c (w'.net.conns c) before ⟨msgType, payload⟩) R w := by
  have hgo : w.net.perform 0 0 (.write c msgType payload) .go = some (.ok (),
      w.net.modify c (·.send ⟨msgType, payload⟩ (encode ⟨msgType, payload⟩))) := by
    simp only [Net.perform, writeMessage_of_fits hfits]
  unfold Code.write
  rw [meets_bind]
  refine meets_lift.mpr (net_sure .go ⟨trivial, trivial⟩ hgo fun choice r n hsmooth _ hn => ?_)
  have hchoice : choice = .go := by cases choice <;> first | rfl | exact hsmooth.elim
  subst hchoice
  cases hgo.symm.trans hn
  refine ⟨touches_modify c _ w, ?_⟩
  rw [Net.modify_self]
  exact h.send hfits

/-- The answer arrives, in one piece or many. -/
theorem read_sure {g : Frame} (h : Pending P c (w.net.conns c) before f) (hans : P.answers c before f = [g])
    (hg : Fits g) :
    Meets (undisturbed P requests) (.readTimed c : Code Frame)
      (fun w' g' => g' = g ∧ Touches c w w' ∧ Settled P c (w'.net.conns c) (before ++ [f])) R w := by
  have hstream : P.stream c (w.net.conns c).written = (w.net.conns c).taken ++ encode g := by
    rw [h.written, P.stream_encodeAll c h.fits, P.replies_snoc, hans, h.taken, encodeAll_append,
      encodeAll_single]
  have hgot : (w.net.conns c).taken ++ encode g <+: P.stream c (w.net.conns c).written :=
    hstream ▸ List.prefix_rfl
  have harrive : w.net.perform 0 0 (.read c true) (.arrive (encode g)) = some (.inTime (.ok g),
      w.net.modify c fun conn => (conn.take (encode g) []).receive g) := by
    simp only [Net.perform, h.ahead, List.nil_append, readMessage_encode_self hg]
  unfold Code.readTimed
  rw [meets_bind]
  refine meets_lift.mpr (net_sure (.arrive (encode g)) ⟨hgot, trivial⟩ harrive
    fun choice r n hsmooth _ hn => ?_)
  cases choice with
  | arrive got =>
    have hread : readMessage ((w.net.conns c).ahead ++ got) ≠ .short := by
      intro hshort
      simp [Net.perform, hshort] at hn
    have hsent : (w.net.conns c).taken ++ got <+: P.stream c (w.net.conns c).written := hsmooth
    obtain ⟨hmsg, hset⟩ := h.read hans hg hsent hread
    simp only [Net.perform, hmsg] at hn
    cases hn
    refine ⟨rfl, touches_modify c _ w, ?_⟩
    rw [Net.modify_self]
    exact hset
  | _ => exact hsmooth.elim

end Operations

/-! ### The methods -/

section Methods
variable {S : Codec} {P : Peer} {requests : List ServiceRequest} {w : Client UdsClient} {c : ConnId}
  {before : List Frame}

/-- On the client's stream `before` has gone out and been answered. -/
structure Standing (P : Peer) (w : Client UdsClient) (c : ConnId) (before : List Frame) : Prop where
  stream : w.fields.stream = some c
  settled : Settled P c (w.net.conns c) before

theorem connect_sure {response : HandshakeResponse} (hhello : Fits (hello S))
    (hans : P.answers w.net.opened [] (hello S) = [⟨msgHandshakeAck, S.toVec response⟩])
    (hack : Fits ⟨msgHandshakeAck, S.toVec response⟩) (hsuccess : response.success = true) :
    Meets (undisturbed P requests) (connect S)
      (fun w' _ => Standing P w' w.net.opened [hello S] ∧ w'.net.opened = w.net.opened + 1 ∧
        w'.net.created = w.net.created) (fun _ _ => False) w := by
  unfold connect
  rw [meets_bind]
  refine meets_mono (dial_sure w) ?_ fun _ _ h => h
  rintro w₁ _ ⟨rfl, rfl⟩
  have hfresh : Settled P w.net.opened ((w.net.dial 0).conns w.net.opened) [] := by
    rw [Net.dial_conns_self]
    exact settled_fresh 0
  rw [meets_bind]
  refine meets_mono (split_sure hfresh) ?_ fun _ _ h => h
  rintro w₁ _ ⟨ht₁, hset⟩
  rw [meets_bind]
  refine meets_mono (write_sure hset hhello) ?_ fun _ _ h => h
  rintro w₂ _ ⟨ht₂, hpend⟩
  rw [meets_bind]
  refine meets_mono (read_sure hpend hans hack) ?_ fun _ _ h => h
  rintro w₃ _ ⟨rfl, ht₃, hset⟩
  have ht := ht₁.trans (ht₂.trans ht₃)
  rw [if_neg (by simp), meets_bind, Code.meets_decode, Json.Codec.fromSlice_toVec]
  show Meets _ (ite _ _ _) _ _ _
  rw [if_neg (by simp [hsuccess]), meets_bind]
  refine own_sure rfl ?_
  rw [meets_bind]
  refine own_sure rfl (own_sure rfl ?_)
  exact ⟨⟨rfl, hset⟩, ht.opened, ht.created⟩

/-- What an exchange that does not fail leaves, its request leaves. -/
theorem catching_sure {α : Type} {p : Code α} {Q : Client UdsClient → α → Prop}
    (h : Meets (undisturbed P requests) p Q (fun _ _ => False) w) :
    Meets (undisturbed P requests) (tryCatch p fun e => do
      setConnected false
      setStream none
      throw e) Q (fun _ _ => False) w :=
  meets_tryCatch.mpr (meets_mono h (fun _ _ h => h) fun _ _ h => h.elim)

theorem request_sure {α : Type} {p : Code α} {Q : Client UdsClient → α → Prop} (h : Standing P w c before)
    (hp : Meets (undisturbed P requests) p Q (fun _ _ => False) w) :
    Meets (undisturbed P requests) (request S p) Q (fun _ _ => False) w := by
  unfold request
  rw [meets_bind]
  refine own_sure rfl ?_
  rw [h.stream]
  exact catching_sure hp

/-- The first request connects. -/
theorem request_first_sure {α : Type} {p : Code α} {Q : Client UdsClient → α → Prop}
    (hnone : w.fields.stream = none) {response : HandshakeResponse} (hhello : Fits (hello S))
    (hans : P.answers w.net.opened [] (hello S) = [⟨msgHandshakeAck, S.toVec response⟩])
    (hack : Fits ⟨msgHandshakeAck, S.toVec response⟩) (hsuccess : response.success = true)
    (hp : ∀ w', Standing P w' w.net.opened [hello S] → w'.net.opened = w.net.opened + 1 →
      w'.net.created = w.net.created → Meets (undisturbed P requests) p Q (fun _ _ => False) w') :
    Meets (undisturbed P requests) (request S p) Q (fun _ _ => False) w := by
  unfold request
  rw [meets_bind]
  refine own_sure rfl ?_
  rw [hnone]
  show Meets _ (_ >>= _) _ _ _
  rw [meets_bind]
  refine meets_mono (connect_sure hhello hans hack hsuccess) ?_ fun _ _ h => h
  rintro w' _ ⟨hstanding, hopened, hcreated⟩
  exact catching_sure (hp w' hstanding hopened hcreated)

/-- **A call returns what its answer decodes to.** -/
theorem doCallInternal_sure {requestId correlationId service method : String} {payload : Value}
    {request : ServiceRequest} {response : ServiceResponse} (h : Standing P w c before)
    (hrequest : request = .new requestId correlationId service method payload)
    (hnext : requests[(w.net.created 0).length]? = some request)
    (hfits : Fits ⟨msgRequest, S.toVec request⟩)
    (hans : P.answers c before ⟨msgRequest, S.toVec request⟩ = [⟨msgResponse, S.toVec response⟩])
    (hresponse : Fits ⟨msgResponse, S.toVec response⟩) :
    Meets (undisturbed P requests) (doCallInternal S service method payload)
      (fun w' r => r = response ∧ Standing P w' c (before ++ [⟨msgRequest, S.toVec request⟩]) ∧
        w'.net.opened = w.net.opened ∧ w'.net.created 0 = w.net.created 0 ++ [request])
      (fun _ _ => False) w := by
  subst hrequest
  unfold doCallInternal held
  rw [meets_bind, meets_bind]
  refine own_sure rfl ?_
  rw [h.stream]
  show Meets _ (_ >>= _) _ _ _
  rw [meets_bind]
  refine meets_mono (split_sure h.settled) ?_ fun _ _ h => h
  rintro w₁ _ ⟨ht₁, hset⟩
  rw [meets_bind]
  refine meets_mono (newRequest_sure (ht₁.created ▸ hnext)) ?_ fun _ _ h => h
  rintro w₂ _ ⟨rfl, hw₂⟩
  have hset : Settled P c (w₂.net.conns c) before := by
    rw [hw₂]
    exact hset
  rw [meets_bind]
  refine meets_mono (write_sure hset hfits) ?_ fun _ _ h => h
  rintro w₃ _ ⟨ht₃, hpend⟩
  rw [meets_bind]
  refine meets_mono (read_sure hpend hans hresponse) ?_ fun _ _ h => h
  rintro w₄ _ ⟨rfl, ht₄, hset⟩
  have ht := ht₃.trans ht₄
  show Meets _ (ite _ _ _) _ _ _
  rw [if_neg (by simp), Code.meets_decode, Json.Codec.fromSlice_toVec]
  refine ⟨rfl, ⟨?_, hset⟩, ?_, ?_⟩
  · rw [ht.fields, hw₂]
    exact ht₁.fields ▸ h.stream
  · rw [ht.opened, hw₂]
    exact ht₁.opened
  · rw [ht.created, hw₂, ← ht₁.created]
    exact Net.create_created_self ..

end Methods

end XProtocol.UdsClient
