/-! Broadcast channels.

A channel here has the one receiver that is made with it. `Broadcast` is what is promised
of such channels, whatever they are made of: a value that is sent reaches the receiver
while it is there and less than the capacity behind, and the receiver takes what reached
it in that order. `Receiving` is what is promised of a receiver that waits: it gets
each value once, or is told how many it has missed. -/

/-- An implementation of broadcast channels. -/
structure Broadcast (V : Type) where
  Channel : Type
  /-- A channel with its first sender and its receiver. -/
  channel : (capacity : Nat) → Channel
  /-- The number of receivers that the value was sent to, or none if there is no receiver. -/
  send : V → Channel → Option Nat × Channel
  tryRecv : Channel → Option V × Channel
  dropSender : Channel → Channel
  dropReceiver : Channel → Channel
  capacity : Channel → Nat
  /-- Its receiver has not been dropped. -/
  live : Channel → Bool
  /-- What its receiver has still to take. -/
  pending : Channel → List V
  capacity_channel : ∀ n, capacity (channel n) = n
  live_channel : ∀ n, live (channel n) = true
  pending_channel : ∀ n, pending (channel n) = []
  capacity_send : ∀ v c, capacity (send v c).2 = capacity c
  live_send : ∀ v c, live (send v c).2 = live c
  send_count : ∀ v c, (send v c).1 = if live c then some 1 else none
  pending_send : ∀ v c, live c = true → (pending c).length < capacity c → pending (send v c).2 = pending c ++ [v]
  capacity_tryRecv : ∀ c, capacity (tryRecv c).2 = capacity c
  live_tryRecv : ∀ c, live (tryRecv c).2 = live c
  pending_tryRecv : ∀ c, (tryRecv c).1.toList ++ pending (tryRecv c).2 = pending c
  capacity_dropSender : ∀ c, capacity (dropSender c) = capacity c
  live_dropSender : ∀ c, live (dropSender c) = live c
  pending_dropSender : ∀ c, pending (dropSender c) = pending c
  capacity_dropReceiver : ∀ c, capacity (dropReceiver c) = capacity c
  live_dropReceiver : ∀ c, live (dropReceiver c) = false

namespace Broadcast
variable {V : Type}

attribute [simp] capacity_channel live_channel pending_channel capacity_send live_send capacity_tryRecv live_tryRecv
  capacity_dropSender live_dropSender pending_dropSender capacity_dropReceiver live_dropReceiver

/-- A channel that keeps the last values. -/
structure Ring (V : Type) where
  capacity : Nat
  live : Bool
  kept : List V

/-- Channels that overwrite the oldest value when they are full. -/
def ring (V : Type) : Broadcast V where
  Channel := Ring V
  channel capacity := { capacity, live := true, kept := [] }
  send v c :=
    if c.live then (some 1, { c with kept := (c.kept ++ [v]).drop (c.kept.length + 1 - c.capacity) }) else (none, c)
  tryRecv c := (c.kept.head?, { c with kept := c.kept.tail })
  dropSender c := c
  dropReceiver c := { c with live := false }
  capacity := Ring.capacity
  live := Ring.live
  pending := Ring.kept
  capacity_channel _ := rfl
  live_channel _ := rfl
  pending_channel _ := rfl
  capacity_send v c := by split <;> rfl
  live_send v c := by split <;> rfl
  send_count v c := by split <;> rfl
  pending_send v c hlive hroom := by
    rw [if_pos hlive]
    show (c.kept ++ [v]).drop (c.kept.length + 1 - c.capacity) = _
    rw [Nat.sub_eq_zero_of_le hroom, List.drop_zero]
  capacity_tryRecv _ := rfl
  live_tryRecv _ := rfl
  pending_tryRecv c := by
    show c.kept.head?.toList ++ c.kept.tail = c.kept
    cases c.kept <;> rfl
  capacity_dropSender _ := rfl
  live_dropSender _ := rfl
  pending_dropSender _ := rfl
  capacity_dropReceiver _ := rfl
  live_dropReceiver _ := rfl

/-! ### Waiting for a value -/

/-- An implementation of `recv`. -/
structure Receiving (B : Broadcast V) where
  /-- How many values the receiver has neither taken nor been told to have missed. -/
  behind : B.Channel → Nat
  /-- It waits, gets a value, or is told how many it has missed. -/
  recv : B.Channel → Option (Except Nat V × B.Channel)
  behind_channel : ∀ n, behind (B.channel n) = 0
  behind_send : ∀ v c, B.live c = true → behind (B.send v c).2 = behind c + 1
  length_pending : ∀ c, (B.pending c).length = min (behind c) (B.capacity c)
  recv_waits : ∀ c, recv c = none ↔ behind c = 0
  recv_value : ∀ c, 0 < behind c → behind c ≤ B.capacity c →
    ∃ v c', recv c = some (.ok v, c') ∧ B.pending c = v :: B.pending c' ∧ behind c' + 1 = behind c
  recv_lagged : ∀ c, B.capacity c < behind c →
    ∃ c', recv c = some (.error (behind c - B.capacity c), c') ∧ B.pending c' = B.pending c ∧
      behind c' = B.capacity c
  live_recv : ∀ c r c', recv c = some (r, c') → B.live c' = B.live c
  capacity_recv : ∀ c r c', recv c = some (r, c') → B.capacity c' = B.capacity c

/-- Whatever is received, the receiver is nearer to the sender. -/
theorem Receiving.behind_recv {B : Broadcast V} (R : Receiving B) {c c' : B.Channel} {r : Except Nat V}
    (h : R.recv c = some (r, c')) : 0 < R.behind c ∧ R.behind c' + 1 = min (R.behind c) (B.capacity c + 1) := by
  have hpos : 0 < R.behind c := Nat.pos_of_ne_zero fun hzero => nomatch h.symm.trans ((R.recv_waits c).mpr hzero)
  refine ⟨hpos, ?_⟩
  rcases Nat.lt_or_ge (B.capacity c) (R.behind c) with hlagged | hkept
  · obtain ⟨d, hd, -, hbehind⟩ := R.recv_lagged c hlagged
    cases h.symm.trans hd
    omega
  · obtain ⟨v, d, hd, -, hbehind⟩ := R.recv_value c hpos hkept
    cases h.symm.trans hd
    omega

/-- Everything that was sent and not taken, whether it is still kept or not. -/
structure Unread (V : Type) where
  capacity : Nat
  live : Bool
  values : List V

namespace Unread

/-- What is still kept of it. -/
def kept (c : Unread V) : List V := c.values.drop (c.values.length - c.capacity)

theorem kept_eq {c : Unread V} (h : c.values.length ≤ c.capacity) : c.kept = c.values := by
  rw [kept, Nat.sub_eq_zero_of_le h, List.drop_zero]

theorem length_kept (c : Unread V) : c.kept.length = min c.values.length c.capacity := by
  rw [kept, List.length_drop]
  omega

theorem kept_kept (c : Unread V) : ({ c with values := c.kept } : Unread V).kept = c.kept :=
  kept_eq (length_kept c ▸ Nat.min_le_right ..)

def behind (c : Unread V) : Nat := c.values.length

def send (v : V) (c : Unread V) : Option Nat × Unread V :=
  if c.live then (some 1, { c with values := c.values ++ [v] }) else (none, c)

def recv (c : Unread V) : Option (Except Nat V × Unread V) :=
  match c.values with
  | [] => none
  | v :: rest =>
    if c.capacity < c.behind then some (.error (c.behind - c.capacity), { c with values := c.kept })
    else some (.ok v, { c with values := rest })

theorem behind_send {v : V} {c : Unread V} (h : c.live = true) : (c.send v).2.behind = c.behind + 1 := by
  rw [send, if_pos h]
  exact List.length_append

theorem recv_cons {c : Unread V} {v : V} {rest : List V} (h : c.values = v :: rest) :
    c.recv = if c.capacity < c.behind then some (.error (c.behind - c.capacity), { c with values := c.kept })
      else some (.ok v, { c with values := rest }) := by
  unfold recv
  split
  · next hnil => cases h.symm.trans hnil
  · next w rest' hcons =>
    cases h.symm.trans hcons
    rfl

theorem recv_waits (c : Unread V) : c.recv = none ↔ c.behind = 0 := by
  obtain ⟨capacity, live, values⟩ := c
  cases values with
  | nil => exact iff_of_true rfl rfl
  | cons v rest =>
    refine iff_of_false (fun h => ?_) (Nat.succ_ne_zero _)
    rw [recv_cons rfl] at h
    split at h <;> cases h

theorem recv_value {c : Unread V} (hpos : 0 < c.behind) (hle : c.behind ≤ c.capacity) :
    ∃ v c', c.recv = some (.ok v, c') ∧ c.kept = v :: c'.kept ∧ c'.behind + 1 = c.behind := by
  obtain ⟨v, rest, hvalues⟩ := List.exists_cons_of_length_pos hpos
  have hbehind : c.behind = rest.length + 1 := congrArg List.length hvalues
  refine ⟨v, { c with values := rest }, ?_, ?_, hbehind.symm⟩
  · rw [recv_cons hvalues, if_neg (Nat.not_lt.mpr hle)]
  · have hrest : kept { c with values := rest } = rest := kept_eq (by simp only; omega)
    rw [kept_eq hle, hvalues, hrest]

theorem recv_lagged {c : Unread V} (h : c.capacity < c.behind) :
    ∃ c', c.recv = some (.error (c.behind - c.capacity), c') ∧ c'.kept = c.kept ∧ c'.behind = c.capacity := by
  obtain ⟨v, rest, hvalues⟩ := List.exists_cons_of_length_pos (Nat.lt_of_le_of_lt (Nat.zero_le _) h)
  refine ⟨{ c with values := c.kept }, ?_, kept_kept c, ?_⟩
  · rw [recv_cons hvalues, if_pos h]
  · exact (length_kept c).trans (Nat.min_eq_right (Nat.le_of_lt h))

theorem recv_same {c c' : Unread V} {r : Except Nat V} (h : c.recv = some (r, c')) :
    c'.live = c.live ∧ c'.capacity = c.capacity := by
  unfold recv at h
  split at h
  · cases h
  · split at h <;> cases h <;> exact ⟨rfl, rfl⟩

end Unread

/-- Channels that know what their receiver has missed. -/
def unread (V : Type) : Broadcast V where
  Channel := Unread V
  channel capacity := { capacity, live := true, values := [] }
  send := Unread.send
  tryRecv c :=
    if c.capacity < c.behind then (none, { c with values := c.kept })
    else (c.values.head?, { c with values := c.values.tail })
  dropSender c := c
  dropReceiver c := { c with live := false }
  capacity := Unread.capacity
  live := Unread.live
  pending := Unread.kept
  capacity_channel _ := rfl
  live_channel _ := rfl
  pending_channel _ := List.drop_nil
  capacity_send v c := by
    unfold Unread.send
    split <;> rfl
  live_send v c := by
    unfold Unread.send
    split <;> rfl
  send_count v c := by
    unfold Unread.send
    split <;> rfl
  pending_send v c hlive hroom := by
    rw [Unread.length_kept] at hroom
    have hlength : (c.values ++ [v]).length = c.values.length + 1 := List.length_append
    rw [Unread.send, if_pos hlive, Unread.kept_eq (by simp only [hlength]; omega), Unread.kept_eq (by omega)]
  capacity_tryRecv c := by split <;> rfl
  live_tryRecv c := by split <;> rfl
  pending_tryRecv c := by
    split
    · exact Unread.kept_kept c
    · next h =>
      have hle : c.values.length ≤ c.capacity := Nat.le_of_not_lt h
      have htail : c.values.tail.length ≤ c.values.length := by rw [List.length_tail]; omega
      have hkept : Unread.kept { c with values := c.values.tail } = c.values.tail :=
        Unread.kept_eq (Nat.le_trans htail hle)
      show c.values.head?.toList ++ Unread.kept { c with values := c.values.tail } = c.kept
      rw [hkept, Unread.kept_eq hle]
      cases c.values <;> rfl
  capacity_dropSender _ := rfl
  live_dropSender _ := rfl
  pending_dropSender _ := rfl
  capacity_dropReceiver _ := rfl
  live_dropReceiver _ := rfl

def receivingUnread (V : Type) : Receiving (unread V) where
  behind := Unread.behind
  recv := Unread.recv
  behind_channel _ := rfl
  behind_send _ _ := Unread.behind_send
  length_pending := Unread.length_kept
  recv_waits := Unread.recv_waits
  recv_value _ := Unread.recv_value
  recv_lagged _ := Unread.recv_lagged
  live_recv _ _ _ h := (Unread.recv_same h).1
  capacity_recv _ _ _ h := (Unread.recv_same h).2

end Broadcast
