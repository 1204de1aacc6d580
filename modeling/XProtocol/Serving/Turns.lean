import Mathlib.Data.List.Forall2
import XProtocol.Serving

/-! The turns of a session, one by one.

A statement about all turns of a loop is a statement about each reading that the
loop gets to, on the connection as it is then (`Along`); `along_iff` says so of the
session itself. `passed` lists the readings whose request the loop passes to the
handler, with the request; they are all that is ever passed (`handled_passed`). -/
namespace XProtocol
open Wire (Frame)

variable {σ ρ G : Type} (E : Site σ) (ask : Timed (Result Frame) → Ask)

/-- The request that a turn passes to the handler, if it does. -/
def Link.passes (l : Link σ Unit) : Ask → Option ServiceRequest
  | .service none request _ => some request
  | .service (some f) request _ => if Writable E l.sent.length f then some request else none
  | _ => none

/-- The readings that are passed to the handler, and the requests in them. -/
def passed : Link σ Unit → List (Timed (Result Frame)) → List (Timed (Result Frame) × ServiceRequest)
  | _, [] => []
  | l, h :: rest =>
    ((l.passes E (ask h)).map fun request => (h, request)).toList ++
      if (l.after E (ask h)).1 then passed (l.after E (ask h)).2 rest else []

/-- Each reading that the loop gets to meets `P`, on the connection as it is then. -/
def Along (P : Link σ Unit → Timed (Result Frame) → Prop) :
    Link σ Unit → List (Timed (Result Frame)) → Prop
  | _, [] => True
  | l, h :: rest => P l h ∧ ((l.after E (ask h)).1 = true → Along P (l.after E (ask h)).2 rest)

/-- The requests come from readings in `hs`, in order and each from a reading of its own, and
`Q` holds of each with its reading. -/
def Sourced (Q : Timed (Result Frame) → ServiceRequest → Prop) (hs : List (Timed (Result Frame)))
    (requests : List ServiceRequest) : Prop :=
  ∃ sources : List (Timed (Result Frame)), sources.Sublist hs ∧ sources.Forall₂ Q requests

variable {E ask}

theorem sourced_nil {Q : Timed (Result Frame) → ServiceRequest → Prop} {hs : List (Timed (Result Frame))} :
    Sourced Q hs [] := ⟨[], List.nil_sublist _, .nil⟩

theorem Sourced.mono {Q : Timed (Result Frame) → ServiceRequest → Prop} {hs hs' : List (Timed (Result Frame))}
    {requests : List ServiceRequest} (h : Sourced Q hs requests) (hsub : hs.Sublist hs') :
    Sourced Q hs' requests := by
  obtain ⟨sources, hsources, hall⟩ := h
  exact ⟨sources, hsources.trans hsub, hall⟩

theorem Sourced.forall_mem {Q : Timed (Result Frame) → ServiceRequest → Prop}
    {hs : List (Timed (Result Frame))} {requests : List ServiceRequest} (h : Sourced Q hs requests)
    {request : ServiceRequest} (hrequest : request ∈ requests) : ∃ r ∈ hs, Q r request := by
  obtain ⟨sources, hsub, hall⟩ := h
  induction hall generalizing hs with
  | nil => exact nomatch hrequest
  | cons hq _ ih =>
    rcases List.mem_cons.mp hrequest with rfl | hmem
    · exact ⟨_, hsub.subset (List.mem_cons_self ..), hq⟩
    · exact ih hmem ((List.sublist_cons_self _ _).trans hsub)

theorem along_congr {P Q : Link σ Unit → Timed (Result Frame) → Prop} (h : ∀ l r, P l r ↔ Q l r)
    (l : Link σ Unit) (hs : List (Timed (Result Frame))) : Along E ask P l hs ↔ Along E ask Q l hs := by
  induction hs generalizing l with
  | nil => exact Iff.rfl
  | cons r rest ih => simp only [Along, h, ih]

theorem passes_eq_some {l : Link σ Unit} {a : Ask} {request : ServiceRequest}
    (h : l.passes E a = some request) : ∃ before reply, a = .service before request reply := by
  unfold Link.passes at h
  split at h
  · cases h
    exact ⟨_, _, rfl⟩
  · cases (Option.ite_none_right_eq_some.mp h).2
    exact ⟨_, _, rfl⟩
  · cases h

theorem after_handled (l : Link σ Unit) (a : Ask) :
    (l.after E a).2.handled = l.handled ++ (l.passes E a).toList := by
  cases a with
  | service before request reply =>
    cases before with
    | none => simp [Link.after, Link.passes]
    | some f => by_cases hf : Writable E l.sent.length f <;> simp [Link.after, Link.passes, Link.put, hf]
  | _ => simp [Link.after, Link.passes]

theorem passed_sublist (l : Link σ Unit) (hs : List (Timed (Result Frame))) :
    ((passed E ask l hs).map Prod.fst).Sublist hs := by
  induction hs generalizing l with
  | nil => exact List.Sublist.refl _
  | cons h rest ih =>
    have hrest : ((if (l.after E (ask h)).1 then passed E ask (l.after E (ask h)).2 rest else []).map
        Prod.fst).Sublist rest := by
      split
      · exact ih _
      · exact List.nil_sublist _
    rw [passed, List.map_append]
    cases l.passes E (ask h) with
    | none => exact hrest.cons h
    | some request => exact hrest.cons_cons h

/-- What is passed is what is asked for. -/
theorem passed_asked {l : Link σ Unit} {hs : List (Timed (Result Frame))}
    {x : Timed (Result Frame) × ServiceRequest} (hx : x ∈ passed E ask l hs) :
    ∃ before reply, ask x.1 = .service before x.2 reply := by
  induction hs generalizing l with
  | nil => exact nomatch hx
  | cons h rest ih =>
    rcases List.mem_append.mp hx with hx | hx
    · obtain ⟨request, hrequest, rfl⟩ := Option.map_eq_some_iff.mp (Option.mem_toList.mp hx)
      exact passes_eq_some hrequest
    · split at hx
      · exact ih hx
      · exact nomatch hx

theorem forall_passed {Q : Timed (Result Frame) → ServiceRequest → Prop} (l : Link σ Unit)
    (hs : List (Timed (Result Frame))) :
    (∀ x ∈ passed E ask l hs, Q x.1 x.2) ↔
      Along E ask (fun l h => ∀ request, l.passes E (ask h) = some request → Q h request) l hs := by
  induction hs generalizing l with
  | nil => exact iff_of_true nofun trivial
  | cons h rest ih =>
    rw [passed, List.forall_mem_append, Along, ← ih]
    refine and_congr ?_ ?_
    · cases l.passes E (ask h) <;> simp
    · by_cases hgo : (l.after E (ask h)).1 = true <;> simp [hgo]

theorem sourced_passed {Q : Timed (Result Frame) → ServiceRequest → Prop} {l : Link σ Unit}
    {hs : List (Timed (Result Frame))} (h : ∀ x ∈ passed E ask l hs, Q x.1 x.2) :
    Sourced Q hs ((passed E ask l hs).map Prod.snd) := by
  refine ⟨(passed E ask l hs).map Prod.fst, passed_sublist l hs, ?_⟩
  rw [List.forall₂_map_left_iff, List.forall₂_map_right_iff]
  exact List.forall₂_same.mpr h

namespace Service.Loops
variable {A : Service σ ρ G} {g : G}

/-- **What a session passes to its handler is what its turns pass, one after another.** -/
theorem handled_passed (hA : A.Loops E g ask) (l : Link σ ρ) (hs : List (Timed (Result Frame))) :
    ((⟨.looping g, l⟩ : Session σ ρ G).run A hs).link.handled =
      l.handled ++ (passed E ask l.line hs).map Prod.snd := by
  induction hs generalizing l with
  | nil => simp [Session.run, passed]
  | cons h rest ih =>
    obtain ⟨l', hline, hnext⟩ := hA.step l h
    have hhandled : l'.handled = l.handled ++ (l.line.passes E (ask h)).toList :=
      (congrArg Link.handled hline).trans (after_handled l.line (ask h))
    have hhead : ((l.line.passes E (ask h)).map fun request => (h, request)).toList.map Prod.snd =
        (l.line.passes E (ask h)).toList := by
      cases l.line.passes E (ask h) <;> rfl
    rw [Session.run, List.foldl_cons, ← Session.run, passed, List.map_append, hhead, ← List.append_assoc,
      ← hhandled, ← hline]
    rcases hnext with ⟨hgo, hstep⟩ | ⟨hstop, r, hstep⟩
    · rw [hstep, ih, hgo, if_pos rfl]
    · rw [hstep, Session.run_finished ⟨r, rfl⟩, hstop]
      simp

/-- A loop keeps what the greeting left it. -/
theorem run_looping (hA : A.Loops E g ask) {l l' : Link σ ρ} {g' : G} {hs : List (Timed (Result Frame))}
    (h : (⟨.looping g, l⟩ : Session σ ρ G).run A hs = ⟨.looping g', l'⟩) : g' = g := by
  induction hs generalizing l with
  | nil =>
    cases h
    rfl
  | cons r rest ih =>
    obtain ⟨l₁, -, ⟨-, hstep⟩ | ⟨-, r', hstep⟩⟩ := hA.step l r
    · rw [Session.run, List.foldl_cons, hstep] at h
      exact ih h
    · rw [Session.run, List.foldl_cons, hstep, ← Session.run, Session.run_finished ⟨r', rfl⟩] at h
      cases h

/-- The connection behind one more turn. -/
theorem run_snoc (hA : A.Loops E g ask) {l l' : Link σ ρ} {hs : List (Timed (Result Frame))}
    (h : (⟨.looping g, l⟩ : Session σ ρ G).run A hs = ⟨.looping g, l'⟩) (r : Timed (Result Frame)) :
    ((⟨.looping g, l⟩ : Session σ ρ G).run A (hs ++ [r])).link.line = (l'.line.after E (ask r)).2 := by
  obtain ⟨l'', hline, ⟨-, hstep⟩ | ⟨-, r', hstep⟩⟩ := hA.step l' r <;>
    rw [Session.run_append, h, Session.run, List.foldl_cons, hstep] <;> exact hline

/-- **Each turn of a session meets `P` exactly if `P` holds along its readings.** -/
theorem along_iff (hA : A.Loops E g ask) (P : Link σ Unit → Timed (Result Frame) → Prop) (l : Link σ ρ)
    (hs : List (Timed (Result Frame))) :
    (∀ before h behind l', hs = before ++ h :: behind →
        (⟨.looping g, l⟩ : Session σ ρ G).run A before = ⟨.looping g, l'⟩ → P l'.line h) ↔
      Along E ask P l.line hs := by
  induction hs generalizing l with
  | nil =>
    refine iff_of_true (fun before h behind l' hs _ => ?_) trivial
    exact absurd hs.symm (List.append_ne_nil_of_right_ne_nil _ (List.cons_ne_nil _ _))
  | cons h rest ih =>
    obtain ⟨l', hline, hnext⟩ := hA.step l h
    rw [Along, ← hline]
    constructor
    · intro hall
      refine ⟨hall [] h rest l rfl rfl, fun hgo => (ih l').mp fun before h' behind l'' hs hrun => ?_⟩
      rcases hnext with ⟨-, hstep⟩ | ⟨hstop, -⟩
      · refine hall (h :: before) h' behind l'' (by rw [hs, List.cons_append]) ?_
        rw [Session.run, List.foldl_cons, hstep]
        exact hrun
      · exact absurd (hgo.symm.trans hstop) Bool.true_eq_false.mp
    · rintro ⟨hhead, hrest⟩ before h' behind l'' hs hrun
      cases before with
      | nil =>
        cases hs
        cases hrun
        exact hhead
      | cons b before =>
        obtain ⟨rfl, rfl⟩ := List.cons.inj hs
        rw [Session.run, List.foldl_cons, ← Session.run] at hrun
        rcases hnext with ⟨hgo, hstep⟩ | ⟨-, r, hstep⟩
        · rw [hstep] at hrun
          exact (ih l').mpr (hrest hgo) before h' behind l'' rfl hrun
        · rw [hstep, Session.run_finished ⟨r, rfl⟩] at hrun
          cases hrun

end Service.Loops

/-! ### From the first message on -/

/-- A connection that was greeted, as its loop finds it. -/
def Site.begun (E : Site σ) (o : HandshakeResponse × σ) : Link σ Unit :=
  { handler := o.2, handled := [], sent := [E.ack o.1], aside := () }

/-- What is so of a task that ended at its first message, and comes down to `C` in a loop that begins,
comes down to `C` of the handshake, if that goes through. -/
theorem Service.Greets.exact {A : Service σ ρ G} {opened : Frame → σ → ρ → Option (HandshakeResponse × σ)}
    (hA : A.Greets E opened) {P : Session σ ρ G → Prop} {C : HandshakeResponse × σ → Prop}
    (hover : ∀ t : Session σ ρ G, t.Finished → t.link.handled = [] → P t)
    (hbegun : ∀ g (l : Link σ ρ) o, l.line = E.begun o → (P ⟨.looping g, l⟩ ↔ C o))
    (s : σ) (a : ρ) (first : Result Frame) :
    P ((Session.accepted s a).step A (.inTime first)) ↔
      ∀ f o, first = .ok f → opened f s a = some o → C o := by
  cases first with
  | error e => exact iff_of_true (hover _ ⟨_, rfl⟩ rfl) nofun
  | ok f =>
    cases ho : opened f s a with
    | none =>
      obtain ⟨r, l, hstep, hl⟩ := hA.refuses ho
      rw [hstep]
      refine iff_of_true (hover _ ⟨r, rfl⟩ hl) fun f' o' hf ho' => ?_
      cases hf
      exact nomatch ho.symm.trans ho'
    | some o =>
      obtain ⟨g, a', hstep⟩ := hA.opens ho
      rw [hstep, hbegun g _ o rfl]
      refine ⟨fun h f' o' hf ho' => ?_, fun h => h f o rfl ho⟩
      cases hf
      cases ho.symm.trans ho'
      exact h

/-- All requests that are handled come from what is read. -/
theorem sourced_run {A : Service σ ρ G} {opened : Frame → σ → ρ → Option (HandshakeResponse × σ)}
    {Q : Timed (Result Frame) → ServiceRequest → Prop} (hgreets : A.Greets E opened)
    (hloops : ∀ g, A.Loops E g ask)
    (hask : ∀ h before request reply, ask h = .service before request reply → Q h request) (s : σ) (a : ρ)
    (hs : List (Timed (Result Frame))) : Sourced Q hs ((Session.accepted s a).run A hs).link.handled := by
  induction hs with
  | nil => exact sourced_nil
  | cons h rest ih =>
    refine Sourced.mono ?_ (List.sublist_cons_self h rest)
    rw [Session.run, List.foldl_cons, ← Session.run]
    cases h with
    | elapsed => exact ih
    | inTime first =>
      refine (hgreets.exact (P := fun t => Sourced Q rest (t.run A rest).link.handled) (C := fun _ => True)
        (fun t ht hnone => ?_) (fun g l o hl => iff_of_true ?_ trivial) s a first).mpr fun _ _ _ _ => trivial
      · rw [Session.run_finished ht, hnone]
        exact sourced_nil
      · rw [(hloops g).handled_passed, show l.handled = [] from congrArg Link.handled hl, List.nil_append]
        refine sourced_passed fun x hx => ?_
        obtain ⟨before, reply, hasked⟩ := passed_asked hx
        exact hask _ _ _ _ hasked

end XProtocol
