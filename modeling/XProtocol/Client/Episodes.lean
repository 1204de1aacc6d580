import XProtocol.Async.Alone
import XProtocol.Async.Ledger
import XProtocol.Net

/-! Clients whose methods are awaited one after another.

Each call of a method is an episode: what was asked, how it ended, and what its code did on
which connection (`Use`). What happens on the connections is up to the environment; what a
client's code makes of it is proved from the fields and the uses alone (`telling`), and holds
of every life of the client (`Lives.keeps`). -/
namespace XProtocol.Client
open Async
open Json (Bytes Value)
open Wire (Frame)

/-- What a method's code has done on a connection. -/
inductive Use where
  | dialled (c : Option ConnId)
  | split (c : ConnId)
  | wrote (c : ConnId) (f : Frame) (ok : Bool)
  /-- Without a message the read has failed, or its timer has fired. -/
  | read (c : ConnId) (f : Option Frame)
  deriving DecidableEq

/-- The connection it was done on. -/
def Use.conn? : Use → Option ConnId
  | .dialled c => c
  | .split c | .wrote c _ _ | .read c _ => some c

/-- It has not failed. -/
def Use.good : Use → Bool
  | .dialled c => c.isSome
  | .split _ => true
  | .wrote _ _ ok => ok
  | .read _ f => f.isSome

variable {Own : Interface} {F J O α : Type}

/-- The use that an operation is, with its answer. -/
def Use.of : (o : Net.Op) → o.Ret → Option Use
  | .connect _, .inTime (.ok c) => some (.dialled (some c))
  | .connect _, _ => some (.dialled none)
  | .split c, _ => some (.split c)
  | .write c msgType payload, .ok _ => some (.wrote c ⟨msgType, payload⟩ true)
  | .write c msgType payload, .error _ => some (.wrote c ⟨msgType, payload⟩ false)
  | .read c _, .inTime (.ok f) => some (.read c (some f))
  | .read c _, _ => some (.read c none)
  | .newRequest .., _ => none

/-- The account of a method: its uses. -/
def noted (uses : List Use) : (o : NetOp Own) → (NetWith Own).Ret o → List Use
  | .net o, r => uses ++ (Use.of o r).toList
  | .own _, _ => uses

/-- One call of a method. -/
structure Episode (F J O : Type) where
  job : J
  /-- The client's fields when it is called. -/
  before : F
  outcome : O
  uses : List Use

/-- The client after the methods that `episodes` tells of, each awaited to its end. -/
inductive Lives (own : Nat → (o : Own.Op) → Choice → F → Option (Own.Ret o × F))
    (task : J → Program (NetWith Own) O) (w : Client F) : List (Episode F J O) → Client F → Prop
  | new : Lives own task w [] w
  | next {episodes : List (Episode F J O)} {w' w'' : Client F} {γ : Nat → List Use} (job : J) {outcome : O}
      (before : Lives own task w episodes w')
      (call : Returns ((machine own).ledger noted) (fun _ _ _ => True) (task job)
        (w', fun _ => []) outcome (w'', γ)) :
      Lives own task w (episodes ++ [⟨job, w'.fields, outcome, γ 0⟩]) w''

/-! ### What a method is told -/

/-- What the code has to go by. -/
structure Notes (F : Type) where
  fields : F
  /-- The connections that were opened. -/
  opened : Nat
  uses : List Use

namespace Notes

/-- One use more. -/
def use (k : Notes F) (u : Use) : Notes F := { k with uses := k.uses ++ [u] }

/-- A connection is opened. -/
def dial (k : Notes F) : Notes F := { k with opened := k.opened + 1, uses := k.uses ++ [.dialled (some k.opened)] }

/-- What is known behind an operation on the network; a new connection has a number of its own. -/
def heard (k k' : Notes F) : (o : Net.Op) → o.Ret → Prop
  | .connect _, .inTime (.ok c) => c = k.opened ∧ k' = k.dial
  | o, r => k' = { k with uses := k.uses ++ (Use.of o r).toList }

end Notes

/-- The network answers what it likes, and the fields what they hold. -/
def telling (own : Nat → (o : Own.Op) → Choice → F → Option (Own.Ret o × F)) :
    Discipline (NetWith Own) (Notes F) where
  demand _ _ := True
  move k
    | .net o, r, k' => k.heard k' o r
    | .own o, r, k' => ∃ choice fields, own 0 o choice k.fields = some (r, fields) ∧ k' = { k with fields }

variable {own : Nat → (o : Own.Op) → Choice → F → Option (Own.Ret o × F)} {task : J → Program (NetWith Own) O}
  {w w' w'' : Client F} {γ : Nat → List Use}

/-- What the code has to go by in this world. -/
def notes (w : Client F) (uses : List Use) : Notes F := ⟨w.fields, w.net.opened, uses⟩

theorem heard_perform {o : Net.Op} {choice : Choice} {r : o.Ret} {n : Net} {uses : List Use}
    (h : w.net.perform 0 0 o choice = some (r, n)) :
    (notes w uses).heard (notes { w with net := n } (uses ++ (Use.of o r).toList)) o r := by
  have hsame (ho : ∀ timed, o ≠ .connect timed) :
      notes { w with net := n } (uses ++ (Use.of o r).toList) =
        { notes w uses with uses := uses ++ (Use.of o r).toList } := by
    unfold notes
    rw [Net.perform_opened ho h]
  cases o with
  | connect timed =>
    obtain ⟨rfl, rfl⟩ | ⟨hnone, rfl⟩ := Net.perform_connect h
    · exact ⟨rfl, rfl⟩
    · rcases r with (e | c) | _
      · rfl
      · exact absurd rfl (hnone c)
      · rfl
  | split c => exact hsame nofun
  | write c msgType payload => exact hsame nofun
  | read c timed => exact hsame nofun
  | newRequest service method payload => exact hsame nofun

/-- **What a method owes by what it is told, it owes in every world.** -/
theorem safe_told {p : Program (NetWith Own) α} {Q : Notes F → α → Prop} {x : Client F × (Nat → List Use)}
    (h : Safe (telling own) p Q (notes x.1 (x.2 0))) :
    Safe (((machine own).ledger noted).alone fun _ _ _ => True) p (fun x a => Q (notes x.1 (x.2 0)) a) x := by
  induction p generalizing x with
  | done a => exact h
  | perform o k ih =>
    refine ⟨trivial, ?_⟩
    rintro r x' ⟨choice, -, hperform⟩
    obtain ⟨⟨r, w'⟩, hw, heq⟩ := Option.map_eq_some_iff.mp hperform
    cases heq
    refine ih r (h.2 r _ ?_)
    have hnoted : Function.update x.2 0 (noted (x.2 0) o r) 0 = noted (x.2 0) o r := Function.update_self ..
    show (telling own).move _ o r (notes w' (Function.update x.2 0 (noted (x.2 0) o r) 0))
    rw [hnoted]
    cases o with
    | net o =>
      obtain ⟨⟨r, n⟩, hn, heq⟩ := Option.map_eq_some_iff.mp hw
      cases heq
      exact heard_perform hn
    | own o =>
      obtain ⟨⟨r, fields⟩, hfields, heq⟩ := Option.map_eq_some_iff.mp hw
      cases heq
      exact ⟨choice, fields, hfields, rfl⟩

/-- The uses only become more. -/
theorem uses_grow {p : Program (NetWith Own) α} {k : Notes F} :
    Safe (telling own) p (fun k' _ => k.uses <+: k'.uses) k := by
  induction p generalizing k with
  | done a => exact List.prefix_rfl
  | perform o f ih =>
    refine ⟨trivial, fun r k' hmove => safe_mono (ih r) fun _ _ h => List.IsPrefix.trans ?_ h⟩
    cases o with
    | own o =>
      obtain ⟨choice, fields, -, rfl⟩ := hmove
      exact List.prefix_rfl
    | net o =>
      revert hmove
      show k.heard k' o r → _
      unfold Notes.heard
      split
      · rintro ⟨-, rfl⟩
        exact List.prefix_append _ _
      · rintro rfl
        exact List.prefix_append _ _

/-- What a call owes by what it is told holds when it ends. -/
theorem told {p : Program (NetWith Own) α} {Q : Notes F → α → Prop} {a : α}
    (h : Returns ((machine own).ledger noted) (fun _ _ _ => True) p (w, fun _ => []) a (w', γ))
    (hp : Safe (telling own) p Q (notes w [])) : Q (notes w' (γ 0)) a :=
  h.safe (Q := fun x a => Q (notes x.1 (x.2 0)) a) (safe_told (x := (w, fun _ => [])) hp)

/-- **What every call keeps holds of every life.** -/
theorem Lives.keeps {I : List (Episode F J O) → F → (opened : Nat) → Prop} (hnew : I [] w.fields w.net.opened)
    (hcall : ∀ episodes fields opened job, I episodes fields opened →
      Safe (telling own) (task job) (fun k outcome => I
        (episodes ++ [⟨job, fields, outcome, k.uses⟩]) k.fields k.opened)
        ⟨fields, opened, []⟩)
    {episodes : List (Episode F J O)} (h : Lives own task w episodes w') :
    I episodes w'.fields w'.net.opened := by
  induction h with
  | new => exact hnew
  | next job _ call ih => exact told call (hcall _ _ _ job ih)

/-! ### Lives that are run -/

/-- The life that the choices in `plan` make, call by call. -/
def live (own : Nat → (o : Own.Op) → Choice → F → Option (Own.Ret o × F)) (task : J → Program (NetWith Own) O) :
    (plan : List (J × List (Nat × Choice))) → List (Episode F J O) → Client F →
      Option (List (Episode F J O) × Client F)
  | [], episodes, w => some (episodes, w)
  | (job, ls) :: plan, episodes, w =>
    ((⟨(w, fun _ => []), [task job]⟩ : Config (NetWith Own) (Client F × (Nat → List Use)) O).run
      ((machine own).ledger noted) ls).bind fun s =>
        (s.returned 0).bind fun outcome => live own task plan
          (episodes ++ [⟨job, w.fields, outcome, s.world.2 0⟩]) s.world.1

theorem Lives.live {plan : List (J × List (Nat × Choice))} {episodes episodes' : List (Episode F J O)}
    (h : Lives own task w episodes w') (hlive : live own task plan episodes w' = some (episodes', w'')) :
    Lives own task w episodes' w'' := by
  induction plan generalizing episodes w' with
  | nil =>
    cases hlive
    exact h
  | cons call plan ih =>
    obtain ⟨s, hrun, hlive⟩ := Option.bind_eq_some_iff.mp hlive
    obtain ⟨outcome, hreturned, hlive⟩ := Option.bind_eq_some_iff.mp hlive
    exact ih (h.next call.1 ⟨call.2, s, hrun, Config.along_of_forall (fun _ _ _ _ _ => trivial) _ _,
      hreturned, rfl⟩) hlive

/-! ### The operations, by what they tell -/

section Told
variable {Q : Notes F → α → Prop} {R : Notes F → ProtocolError → Prop} {k : Notes F}

theorem told_connect {timed : Bool} {Q : Notes F → Timed (Except String ConnId) → Prop}
    (hok : Q k.dial (.inTime (.ok k.opened))) (herr : ∀ r, (∀ c, r ≠ .inTime (.ok c)) →
      Q (k.use (.dialled none)) r) :
    Meets (telling own) (Code.net (.connect timed)) Q R k := by
  refine (Code.meets_net _ _).mpr ⟨trivial, fun r k' hmove => ?_⟩
  rcases r with (e | c) | _
  · cases hmove
    exact herr _ nofun
  · obtain ⟨rfl, rfl⟩ := hmove
    exact hok
  · cases hmove
    exact herr _ nofun

theorem told_split {c : ConnId} {Q : Notes F → Unit → Prop} (h : Q (k.use (.split c)) ()) :
    Meets (telling own) (Code.split c) Q R k := by
  refine (Code.meets_net _ _).mpr ⟨trivial, fun r k' hmove => ?_⟩
  cases hmove
  exact h

theorem told_write {c : ConnId} {msgType : UInt8} {payload : Bytes} {Q : Notes F → Unit → Prop}
    (hok : Q (k.use (.wrote c ⟨msgType, payload⟩ true)) ())
    (herr : ∀ e, R (k.use (.wrote c ⟨msgType, payload⟩ false)) e) :
    Meets (telling own) (Code.write c msgType payload) Q R k := by
  refine (Code.meets_write _ _ _ _).mpr ⟨trivial, fun r k' hmove => ?_⟩
  rcases r with e | u
  · cases hmove
    exact herr e
  · cases hmove
    exact hok

/-- A read, under a timer or not. -/
theorem told_reading {c : ConnId} {timed : Bool} {Q : Notes F → Frame → Prop}
    {r : Timed (Result Frame)} {k' : Notes F}
    (hmove : k.heard k' (.read c timed) r) (hok : ∀ f, Q (k.use (.read c (some f))) f)
    (herr : ∀ e, R (k.use (.read c none)) e) : Code.EndsInTime Q R k' r := by
  rcases r with (e | f) | _
  · cases hmove
    exact herr e
  · cases hmove
    exact hok f
  · cases hmove
    exact herr .timeout

theorem told_readTimed {c : ConnId} {Q : Notes F → Frame → Prop} (hok : ∀ f, Q (k.use (.read c (some f))) f)
    (herr : ∀ e, R (k.use (.read c none)) e) : Meets (telling own) (Code.readTimed c) Q R k :=
  (Code.meets_readTimed _ _).mpr ⟨trivial, fun _ _ hmove => told_reading hmove hok herr⟩

theorem told_read {c : ConnId} {Q : Notes F → Frame → Prop} (hok : ∀ f, Q (k.use (.read c (some f))) f)
    (herr : ∀ e, R (k.use (.read c none)) e) : Meets (telling own) (Code.read c) Q R k :=
  (Code.meets_read _ _).mpr ⟨trivial, fun _ _ hmove => told_reading hmove hok herr⟩

theorem told_newRequest {service method : String} {payload : Value} {Q : Notes F → ServiceRequest → Prop}
    (h : ∀ r, Q k r) : Meets (telling own) (Code.newRequest service method payload) Q R k := by
  refine (Code.meets_net _ _).mpr ⟨trivial, fun r k' hmove => ?_⟩
  have hsame : k' = { k with uses := k.uses ++ [] } := hmove
  rw [List.append_nil] at hsame
  exact hsame ▸ h r

theorem told_decode [Json.Deserialize α] {S : Json.Codec} {payload : Bytes}
    (hok : ∀ a, S.fromSlice payload = some a → Q k a)
    (herr : (S.fromSlice payload : Option α) = none → R k (.ofJson (S.message payload))) :
    Meets (telling own) (Code.decode S payload : XProtocol.Code Own α) Q R k := by
  refine (Code.meets_decode S payload Q).mpr ?_
  cases hdecoded : (S.fromSlice payload : Option α) with
  | none => exact herr hdecoded
  | some a => exact hok a hdecoded

theorem told_own {o : Own.Op} {Q : Notes F → Own.Ret o → Prop}
    (h : ∀ choice r fields, own 0 o choice k.fields = some (r, fields) → Q { k with fields } r) :
    Meets (telling own) (Code.own o) Q R k := by
  refine (Code.meets_own _ _).mpr ⟨trivial, ?_⟩
  rintro r k' ⟨choice, fields, hfields, rfl⟩
  exact h choice r fields hfields

end Told

end XProtocol.Client
