import XProtocol.Async.Alone
import XProtocol.Net

/-! Clients that are taken by exclusive reference.

One method runs at a time, and its future may be dropped where it waits: then the
client stays as it was at that point, and the next method finds it so. What holds
between two methods, at every operation, and where one is dropped holds throughout
(`throughout_inTurn`). -/
namespace XProtocol.Client
open Async

variable {Own : Interface} {F α : Type}

/-- One method after the other, each of which may be dropped. -/
def inTurn (methods : List (Program (NetWith Own) α)) : Program (NetWith Own).droppable (List (Option α)) :=
  Program.inTurn (methods.map Program.dropping)

/-- What is left of an operation of a method that is dropped there. -/
def abandon (w : Client F) (out : Nat) (got : Json.Bytes) : NetOp Own → Client F
  | .net o => { w with net := Net.abandon o out got w.net }
  | .own _ => w

/-- The client's machine, when methods may be dropped at the operations that suspend them. -/
def dropping (suspends : NetOp Own → Bool)
    (own : Nat → (o : Own.Op) → Choice → F → Option (Own.Ret o × F)) :
    Machine (NetWith Own).droppable (Client F) Choice where
  perform t o choice w :=
    match choice with
    | .drop out got => if suspends o then some (none, w.abandon out got o) else none
    | choice => ((machine own).perform t o choice w).map fun x => (some x.1, x.2)

section Dropping
variable {suspends : NetOp Own → Bool} {own : Nat → (o : Own.Op) → Choice → F → Option (Own.Ret o × F)}
  {t : Nat} {choice : Choice} {w w' : Client F}

/-- What an operation can do: what it does for a method that is not dropped, or what is left of it. -/
theorem dropping_cases {o : NetOp Own} {r : Option ((NetWith Own).Ret o)}
    (h : (dropping suspends own).perform t o choice w = some (r, w')) :
    (∃ r', r = some r' ∧ choice.isDrop = false ∧ (machine own).perform t o choice w = some (r', w')) ∨
    (r = none ∧ ∃ out got, choice = .drop out got ∧ w' = w.abandon out got o) := by
  cases choice with
  | drop out got =>
    have h : (if suspends o then some (none, w.abandon out got o) else none) = some (r, w') := h
    obtain ⟨-, heq⟩ := Option.ite_none_right_eq_some.mp h
    cases heq
    exact .inr ⟨rfl, out, got, rfl, rfl⟩
  | _ =>
    obtain ⟨⟨r', w''⟩, hw, heq⟩ := Option.map_eq_some_iff.mp h
    cases heq
    exact .inl ⟨r', rfl, rfl, hw⟩

variable {P : Client F → NetOp Own → Choice → Prop} {A : Client F → NetOp Own → Prop} {R : Client F → Prop}

/-- **What a method keeps up from one operation to the next holds throughout**, whichever
methods there are, if it holds where one is dropped. -/
theorem throughout_inTurn (hA : ∀ w o, A w o → R w)
    (hdrop : ∀ w o out got, A w o → P w o (.drop out got) → R (w.abandon out got o))
    {methods : List (Program (NetWith Own) α)}
    (hmethods : ∀ m ∈ methods, ∀ w, R w → Safe ((machine own).within P A) m (fun w _ => R w) w) (hw : R w)
    {ls : List (Nat × Choice)}
    (hP : (⟨w, [inTurn methods]⟩ : Config (NetWith Own).droppable (Client F) (List (Option α))).Along
      (dropping suspends own) (Config.Performs fun w _ o choice => P w o choice) ls) :
    (⟨w, [inTurn methods]⟩ : Config (NetWith Own).droppable (Client F) (List (Option α))).Throughout
      (dropping suspends own) (fun s => R s.world) ls := by
  refine throughout_within (safe_inTurn (fun p hp w hw => ?_) hw) hA (fun _ _ h => h) hP
  obtain ⟨m, hm, rfl⟩ := List.mem_map.mp hp
  -- a method that is not dropped ends as it would, and one that is leaves what its operation leaves
  have hdropped : Safe ((dropping suspends own).within P A) m.dropping
      (fun w' a => (∀ b, a = some b → ∃ w, w = w' ∧ R w) ∧ (a = none → R w')) w := by
    refine safe_embed_droppable ?_ ?_ ?_ (hmethods m hm w hw) rfl
    · rintro w _ o rfl ho
      exact ho
    · rintro w _ o r w' b rfl - ⟨choice, hchoice, hperform⟩ hr
      obtain ⟨r', rfl, -, hown⟩ | ⟨rfl, -⟩ := dropping_cases hperform
      · cases hr
        exact ⟨w', ⟨choice, hchoice, hown⟩, rfl⟩
      · exact nomatch hr
    · rintro w _ o r w' rfl ho ⟨choice, hchoice, hperform⟩ hr
      obtain ⟨r', rfl, -⟩ | ⟨-, out, got, rfl, rfl⟩ := dropping_cases hperform
      · exact nomatch hr
      · exact hdrop w o out got ho hchoice
  refine safe_mono hdropped ?_
  rintro w' (_ | a) ⟨hdone, hleft⟩
  · exact hleft rfl
  · obtain ⟨_, rfl, hR⟩ := hdone a rfl
    exact hR

end Dropping

/-! ### One operation of a method -/

section Within
variable {own : Nat → (o : Own.Op) → Choice → F → Option (Own.Ret o × F)}
  {P : Client F → NetOp Own → Choice → Prop} {A : Client F → NetOp Own → Prop} {w : Client F}

theorem net_within {o : Net.Op} {Q : Client F → o.Ret → Prop} (hA : A w (.net o))
    (h : ∀ choice r n, P w (.net o) choice → w.net.perform 0 0 o choice = some (r, n) →
      Q { w with net := n } r) :
    Safe ((machine own).within P A) (Program.op (E := NetWith Own) (.net o)) Q w := by
  refine (safe_op ..).mpr ⟨hA, ?_⟩
  rintro r w' ⟨choice, hchoice, hperform⟩
  obtain ⟨⟨r, n⟩, hn, heq⟩ := Option.map_eq_some_iff.mp hperform
  cases heq
  exact h choice r n hchoice hn

theorem own_within {o : Own.Op} {Q : Client F → Own.Ret o → Prop} (hA : A w (.own o))
    (h : ∀ choice r u, own 0 o choice w.fields = some (r, u) → Q { w with fields := u } r) :
    Safe ((machine own).within P A) (Program.op (E := NetWith Own) (.own o)) Q w := by
  refine (safe_op ..).mpr ⟨hA, ?_⟩
  rintro r w' ⟨choice, -, hperform⟩
  obtain ⟨⟨r, u⟩, hu, heq⟩ := Option.map_eq_some_iff.mp hperform
  cases heq
  exact h choice r u hu

end Within

end XProtocol.Client
