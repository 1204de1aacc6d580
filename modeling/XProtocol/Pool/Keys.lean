import XProtocol.Async.Ledger
import XProtocol.Async.Mutex
import XProtocol.Client.Locking
import XProtocol.Client.Once

/-! What a call of a pool takes, and gives back.

A permit, the lock of the idle list, and a client that it is inside of: what the tasks have
of these is what is missing in the pool (`Keys.Owned`). A method of a client enters the
client once, and leaves it (`locked_visiting`); inside, it can always go on
(`inner_moves`). -/
namespace XProtocol
open Async
open Json (Codec)
open ReliableUdsClient (Held)

/-! ### Inside a client -/

namespace SharedUdsClient

/-- Whether the caller is inside the client. -/
def enters (inside : Bool) : (o : Op) → Calls.Ret o → Bool
  | .lock, _ => true
  | .unlock, _ => false
  | .inner _, _ => inside

def Behaves (inside : Bool) : Op → Prop
  | .lock => inside = false
  | .unlock => inside = true
  | .inner o => inside = true ∧ o ≠ .own .panic

/-- The discipline of the callers of a client: they enter it, and leave it. -/
abbrev visiting : Discipline Calls Bool := owing Behaves enters

theorem locked_visiting {S : Codec} {α : Type} {p : UdsClient.Code α} (hp : Once S p) :
    Safe visiting (locked p) (fun inside _ => inside = false) false := by
  have hdemand (d : Draft) (inside : Bool) (o : NetOp UdsClient.Fields) (hin : inside = true)
      (h : d.owes S (.inner o)) : Behaves inside (.inner o) := by
    refine ⟨hin, ?_⟩
    rintro rfl
    exact h
  have hmove (d : Draft) (inside : Bool) (o : NetOp UdsClient.Fields) (r : Calls.Ret (.inner o)) (inside' : Bool)
      (hin : inside = true) (_ : d.owes S (.inner o)) (hm : inside' = enters inside (.inner o) r) :
      ∃ d', d' = d.moved (.inner o) r ∧ inside' = true := ⟨_, rfl, hm.trans hin⟩
  unfold locked
  rw [safe_bind]
  refine safe_owing.mpr ⟨rfl, fun _ => (safe_done ..).mpr ?_⟩
  rw [safe_bind]
  refine safe_mono (safe_embed hdemand hmove (hp none) rfl) ?_
  rintro _ r ⟨_, rfl, -⟩
  rw [safe_bind]
  exact safe_owing.mpr ⟨rfl, fun _ => (safe_done ..).mpr rfl⟩

end SharedUdsClient

/-- Of what a task takes from a pool, what it has. -/
structure Keys where
  permit : Bool := false
  /-- The lock of the idle list. -/
  pool : Bool := false
  /-- The client that it is inside of. -/
  client : Option Nat := none

/-- Nothing, and then nothing changes hands. -/
def Keys.none : Keys := {}

theorem Keys.unlocked {g : Keys} (h : g.pool = false) : ({ g with pool := false } : Keys) = g := by rw [← h]

/-- Who is inside a client can always go on there, without being dropped. -/
theorem inner_moves (w : Clients) (t i : Nat) {o : NetOp UdsClient.Fields} (ho : o ≠ .own .panic) :
    ∃ choice r w', choice.isDrop = false ∧ w.perform t i (.inner o) choice = some (r, w') := by
  cases o with
  | own o =>
    cases o with
    | panic => exact absurd rfl ho
    | _ => exact ⟨.go, _, _, rfl, rfl⟩
  | net o =>
    have hnet (choice : Choice) (hdrop : choice.isDrop = false) {r : o.Ret} {n : Net}
        (h : w.net.perform t i o choice = some (r, n)) :
        ∃ choice r w', choice.isDrop = false ∧ w.perform t i (.inner (.net o)) choice = some (r, w') :=
      ⟨choice, r, { w with net := n }, hdrop, by simp [Clients.perform, h]⟩
    cases o with
    | connect timed => exact hnet .go rfl rfl
    | split c => exact hnet .go rfl rfl
    | newRequest service method payload => exact hnet (.uuids "" "") rfl rfl
    | write c msgType payload =>
      cases hw : Wire.writeMessage msgType payload with
      | error e => exact hnet .go rfl (by simp only [Net.perform, hw]; rfl)
      | ok bytes => exact hnet .go rfl (by simp only [Net.perform, hw]; rfl)
    | read c timed =>
      cases hr : Wire.readMessage ((w.net.conns c).ahead ++ []) with
      | message f rest => exact hnet (.arrive []) rfl (by simp only [Net.perform, hr]; rfl)
      | invalid len rest => exact hnet (.arrive []) rfl (by simp only [Net.perform, hr]; rfl)
      | short => exact hnet (.fail 0 [] "") rfl (by simp only [Net.perform, hr, if_true]; rfl)

/-- Where a task is that was `inside` before an operation on `client`. -/
def visited (client : Nat) (inside : Option Nat) : SharedUdsClient.Op → Option Nat
  | .lock => some client
  | .unlock => none
  | .inner _ => inside

section
variable {w w' : Clients} {inside : Nat → Option Nat} {t client : Nat} {o : SharedUdsClient.Op}

theorem occupied_perform {choice : Choice} {r : SharedUdsClient.Calls.Ret o} (h : Occupied w.holder inside)
    (hlock : o = .lock → inside t = none) (hunlock : o = .unlock → inside t = some client)
    (hstep : w.perform t client o choice = some (r, w')) :
    Occupied w'.holder (Function.update inside t (visited client (inside t) o)) := by
  cases o with
  | lock =>
    cases choice <;> simp [Clients.perform] at hstep
    obtain ⟨hfree, rfl⟩ := hstep
    exact h.enters hfree (hlock rfl)
  | unlock =>
    cases choice <;> simp [Clients.perform] at hstep
    subst hstep
    exact h.leaves (hunlock rfl)
  | inner o =>
    have hholder : w'.holder = w.holder := by
      cases o with
      | net o =>
        obtain ⟨⟨r', n⟩, -, heq⟩ := Option.map_eq_some_iff.mp hstep
        cases heq
        rfl
      | own o =>
        obtain ⟨⟨r', u⟩, -, heq⟩ := Option.map_eq_some_iff.mp hstep
        cases heq
        rfl
    rw [hholder]
    exact h.kept

/-- A task that is dropped leaves the client. -/
theorem occupied_abandon {out : Nat} {got : Json.Bytes} (h : Occupied w.holder inside)
    (hin : inside t = none ∨ inside t = some client) :
    Occupied (w.abandon t client o out got).holder (Function.update inside t none) := by
  have hholder : (w.abandon t client o out got).holder =
      if w.holder client = some t then Function.update w.holder client none else w.holder := by
    unfold Clients.abandon
    split
    · cases o with
      | inner o => cases o <;> rfl
      | _ => rfl
    · cases o with
      | inner o => cases o <;> rfl
      | _ => rfl
  rw [hholder]
  rcases hin with hin | hin
  · have hout : w.holder client ≠ some t := fun hheld => nomatch hin.symm.trans (h.holder_iff.mp hheld)
    rw [if_neg hout]
    rw [← hin]
    exact h.kept
  · rw [if_pos (h.holder_iff.mpr hin)]
    exact h.leaves hin

end

/-! ### What is taken, and what is missing -/

namespace Keys

/-- What a task has of rank `r`: a permit, the lock, a client. -/
def Has (g : Keys) (r : Nat) : Prop := (r = 0 ∧ g.permit = true) ∨ (r = 1 ∧ g.pool = true) ∨ (r = 2 ∧ g.client ≠ Option.none)

theorem Has.le {g : Keys} {r : Nat} (h : Has g r) : r ≤ 2 := by
  rcases h with ⟨rfl, -⟩ | ⟨rfl, -⟩ | ⟨rfl, -⟩ <;> decide

theorem not_has_none (r : Nat) : ¬ Has .none r := by
  rintro (⟨-, h⟩ | ⟨-, h⟩ | ⟨-, h⟩)
  · cases h
  · cases h
  · exact h rfl

/-- What the tasks have of `n` permits, of a lock and of clients is what is missing there. -/
structure Owned (n count permits : Nat) (lock : Option Nat) (holder : Nat → Option Nat) (γ : Nat → Keys) : Prop where
  permits : permits + total count (fun g => g.permit.toNat) γ = n
  pool : Held lock (Keys.pool ∘ γ)
  client : Occupied holder (Keys.client ∘ γ)
  beyond : ∀ t, count ≤ t → γ t = .none

theorem owned_new (n count : Nat) : Owned n count n Option.none (fun _ => Option.none) fun _ => .none where
  permits := by
    have hnone : total count (fun g : Keys => g.permit.toNat) (fun _ => .none) = 0 := total_eq_zero.mpr fun _ _ => rfl
    rw [hnone]
    rfl
  pool _ := ⟨nofun, nofun⟩
  client := Occupied.idle
  beyond _ _ := rfl

namespace Owned
variable {n count permits permits' t : Nat} {lock lock' : Option Nat} {holder holder' : Nat → Option Nat} {γ : Nat → Keys}

/-- A task takes something, or gives it back. -/
theorem moves (h : Owned n count permits lock holder γ) (ht : t < count) {g : Keys}
    (hpermits : permits' + g.permit.toNat = permits + (γ t).permit.toNat)
    (hpool : Held lock' (Function.update (Keys.pool ∘ γ) t g.pool))
    (hclient : Occupied holder' (Function.update (Keys.client ∘ γ) t g.client)) :
    Owned n count permits' lock' holder' (Function.update γ t g) where
  permits := by
    have hupdate := total_update (f := fun g : Keys => g.permit.toNat) (γ := γ) ht g
    have hbefore := h.permits
    omega
  pool := by rwa [Function.comp_update]
  client := by rwa [Function.comp_update]
  beyond u hu := by
    rw [Function.update_of_ne (by omega)]
    exact h.beyond u hu

theorem below (h : Owned n count permits lock holder γ) (ht : γ t ≠ .none) : t < count := by
  by_contra hge
  exact ht (h.beyond t (Nat.le_of_not_lt hge))

/-- If there is no permit left, somebody has one. -/
theorem permitted (h : Owned n count permits lock holder γ) (hgone : permits = 0) (hn : 0 < n) : ∃ u < count, Has (γ u) 0 := by
  by_contra hnobody
  have hzero : total count (fun g : Keys => g.permit.toNat) γ = 0 := total_eq_zero.mpr fun u hu => by
    by_contra hne
    exact hnobody ⟨u, hu, .inl ⟨rfl, by simpa using hne⟩⟩
  have hsum := h.permits
  omega

theorem locked {u : Nat} (h : Owned n count permits lock holder γ) (hu : lock = some u) :
    ∃ u < count, Has (γ u) 1 := by
  have hpool : (γ u).pool = true := (h.pool u).mp hu
  refine ⟨u, h.below fun hnone => ?_, .inr (.inl ⟨rfl, hpool⟩)⟩
  cases hnone ▸ hpool

theorem visited {client u : Nat} (h : Owned n count permits lock holder γ) (hu : holder client = some u) :
    ∃ u < count, Has (γ u) 2 := by
  have hclient : (γ u).client = some client := h.client.holder_iff.mp hu
  refine ⟨u, h.below fun hnone => ?_, .inr (.inr ⟨rfl, by simp [hclient]⟩)⟩
  cases hnone ▸ hclient

end Owned

end Keys

end XProtocol
