import XProtocol.Async.Ledger
import XProtocol.Discovery.Locks

/-! The registry and its balancers, under concurrent updates.

An update that has changed the registry owes every strategy a balancer, and stores it under the
read lock, while nobody can change what it has read. So where a balancer is not the one of
the endpoints, some update still owes it (`Agreed`), and when no update is under way all of
them agree (`balancers_agree`). -/
namespace XProtocol.ServiceDiscovery
open Async

variable {B : Balancing}

/-! ### What an operation does -/

/-- The update that an operation makes. -/
def update? : Op B → Option Update
  | .push endpoint => some (.register endpoint)
  | .retain name address => some (.unregister name address)
  | _ => none

def moved (t : Nat) (w : Shared B) : Op B → Shared B
  | .guard use => { w with lock := (w.lock.use t use).getD w.lock }
  | .push endpoint => { w with discovery := w.discovery.push endpoint }
  | .retain name address => { w with discovery := w.discovery.retain name address }
  | .get _ => w
  | .insertLb s name lb => { w with discovery := w.discovery.insertLb name s lb }

/-- When the operation answers `r`. -/
def Allows (t : Nat) (w : Shared B) : (o : Op B) → (Calls B).Ret o → Prop
  | .guard use, _ => (w.lock.use t use).isSome
  | .get name, eps => eps = w.discovery.endpoints.lookup name
  | _, _ => True

structure Effect (t : Nat) (w w' : Shared B) (o : Op B) (r : (Calls B).Ret o) : Prop where
  allowed : Allows t w o r
  moved : w' = moved t w o

theorem perform_effect {t : Nat} {o : Op B} {c : Unit} {w w' : Shared B} {r : (Calls B).Ret o}
    (h : machine.perform t o c w = some (r, w')) : Effect t w w' o r := by
  cases o with
  | guard use =>
    obtain ⟨lock, huse, heq⟩ := Option.map_eq_some_iff.mp h
    cases heq
    refine ⟨?_, ?_⟩
    · simp [Allows, huse]
    · simp [XProtocol.ServiceDiscovery.moved, huse]
  | get name =>
    cases h
    exact ⟨rfl, rfl⟩
  | _ =>
    cases h
    exact ⟨trivial, rfl⟩

namespace Update

/-- What the update makes of the endpoints of its name. -/
def change : Update → Option (List ServiceEndpoint) → Option (List ServiceEndpoint)
  | register endpoint, eps => some (eps.getD [] ++ [endpoint])
  | unregister _ address, eps => eps.map fun eps => eps.filter fun e => e.address ≠ address

theorem apply_lookup (u : Update) (d : ServiceDiscovery B) (name : String) :
    (u.apply d).endpoints.lookup name =
      if name = u.name then u.change (d.endpoints.lookup name) else d.endpoints.lookup name := by
  cases u with
  | register endpoint =>
    by_cases h : name = endpoint.name
    · subst h
      simp [apply, push, Update.name, change]
    · simp [apply, push, Update.name, h, AList.lookup_insert_ne]
  | unregister name' address =>
    by_cases h : name = name'
    · subst h
      cases hlookup : d.endpoints.lookup name <;> simp [apply, retain, Update.name, change, hlookup]
    · cases hlookup : d.endpoints.lookup name' <;>
        simp [apply, retain, Update.name, hlookup, h, AList.lookup_insert_ne]

theorem apply_lbs (u : Update) (d : ServiceDiscovery B) (s : LoadBalancingStrategy) :
    (u.apply d).lbs s = d.lbs s := by
  cases u with
  | register endpoint => exact push_lbs ..
  | unregister name address => exact retain_lbs ..

/-- What the update does to the endpoints depends on nothing else. -/
theorem apply_congr (u : Update) {d d' : ServiceDiscovery B} (h : d.endpoints = d'.endpoints) :
    (u.apply d).endpoints = (u.apply d').endpoints := by
  cases u with
  | register endpoint => simp [apply, push, h]
  | unregister name address =>
    cases hlookup : d'.endpoints.lookup name <;> simp [apply, retain, h, hlookup]

/-- An endpoint that is there after the update was there before, or is registered by it. -/
theorem mem_change {u : Update} {eps : Option (List ServiceEndpoint)} {eps' : List ServiceEndpoint}
    {e : ServiceEndpoint} (h : u.change eps = some eps') (he : e ∈ eps') :
    (∃ old, eps = some old ∧ e ∈ old) ∨ u = register e := by
  cases u with
  | register endpoint =>
    obtain rfl := Option.some.inj h
    rcases List.mem_append.mp he with he | he
    · cases eps with
      | none => cases he
      | some old => exact .inl ⟨old, rfl, he⟩
    · exact .inr (by rw [List.mem_singleton.mp he])
  | unregister name address =>
    obtain ⟨old, rfl, rfl⟩ := Option.map_eq_some_iff.mp h
    exact .inl ⟨old, rfl, List.mem_of_mem_filter he⟩

end Update

/-! ### The account of an update -/

structure Turn where
  update : Option Update
  lock : RwLock.Hold := .nothing
  /-- It has changed the registry. -/
  updated : Bool := false
  /-- The endpoints that it has found. -/
  view : Option (List ServiceEndpoint) := none
  /-- The strategies that it owes no balancer any more. -/
  built : LoadBalancingStrategy → Bool := fun _ => false

namespace Turn

def name (g : Turn) : Option String := g.update.map Update.name

def after (g : Turn) : (o : Op B) → (Calls B).Ret o → Turn
  | .guard use, _ => { g with lock := .after use }
  | .push _, _ | .retain .., _ => { g with updated := true }
  | .get _, some eps => { g with view := some eps }
  | .get _, none => { g with built := fun _ => true }
  | .insertLb s _ _, _ => { g with built := Function.update g.built s true }

/-- An update is made under the write lock, before its balancers are built; these are built
under the read lock, from what was found there. -/
def demand (g : Turn) : Op B → Prop
  | .guard use => g.lock = .before use ∧ (use = .read → g.view = none)
  | .push endpoint =>
    g.lock = .writing ∧ g.updated = false ∧ g.update = some (.register endpoint) ∧ g.built = fun _ => false
  | .retain name address =>
    g.lock = .writing ∧ g.updated = false ∧ g.update = some (.unregister name address) ∧ g.built = fun _ => false
  | .get name => g.lock = .reading ∧ g.name = some name
  | .insertLb _ name lb =>
    g.lock = .reading ∧ g.name = some name ∧
      ∃ eps, g.view = some eps ∧ B.tryFromIter (eps.map ServiceEndpoint.address) = some lb

/-- The update has been made, and owes its name a balancer for the strategy. -/
structure Owes (g : Turn) (name : String) (s : LoadBalancingStrategy) : Prop where
  name : g.name = some name
  updated : g.updated = true
  unbuilt : g.built s = false

/-- An update that has returned. -/
structure Finished (B : Balancing) (g : Turn) : Prop where
  updated : g.updated = true
  /-- It owes a balancer only if none could be built. -/
  built : ∀ s, g.built s = false →
    ∃ eps, g.view = some eps ∧ B.tryFromIter (s := s) (eps.map ServiceEndpoint.address) = none

end Turn

section
variable {g : Turn} {name : String}

/-- It has stored a balancer for the strategy, or there is none. -/
def Settled (B : Balancing) (eps : List ServiceEndpoint) (g : Turn) (s : LoadBalancingStrategy) : Prop :=
  g.built s = true ∨ B.tryFromIter (s := s) (eps.map ServiceEndpoint.address) = none

end

/-! ### One operation -/

section
variable {t : Nat} {w w' : Shared B} {γ : Nat → Turn} {o : Op B} {r : (Calls B).Ret o} {u : Update}

/-- An update is made by the task whose update it is, once. -/
theorem due_of_update {g : Turn} (hd : g.demand o) (hu : update? o = some u) :
    g.lock = .writing ∧ g.updated = false ∧ g.update = some u ∧ g.built = fun _ => false := by
  cases o with
  | push | retain =>
    cases hu
    exact hd
  | _ => cases hu

theorem after_update {g : Turn} (hu : update? o = some u) : g.after o r = { g with updated := true } := by
  cases o with
  | push | retain => rfl
  | _ => cases hu

theorem moved_update (hu : update? o = some u) : (moved t w o).discovery = u.apply w.discovery := by
  cases o with
  | push | retain =>
    cases hu
    rfl
  | _ => cases hu

theorem moved_endpoints (hu : update? o = none) :
    (moved t w o).discovery.endpoints = w.discovery.endpoints := by
  cases o with
  | push | retain => cases hu
  | insertLb s name lb => exact insertLb_endpoints ..
  | _ => rfl

@[simp] theorem Turn.after_name (g : Turn) : (g.after o r).update = g.update := by
  cases o with
  | get name => cases r <;> rfl
  | _ => rfl

theorem Turn.after_updated (g : Turn) (hu : update? o = none) : (g.after o r).updated = g.updated := by
  cases o with
  | push | retain => cases hu
  | get name => cases r <;> rfl
  | _ => rfl

/-- The lock is held by those who think so. -/
abbrev Locked (w : Shared B) (γ : Nat → Turn) : Prop := RwLock.Guards w.lock (Turn.lock ∘ γ)

theorem Locked.step (h : Locked w γ) (hd : (γ t).demand o) (heffect : Effect t w w' o r) :
    Locked w' (Function.update γ t ((γ t).after o r)) := by
  obtain ⟨hallowed, rfl⟩ := heffect
  unfold Locked
  rw [Function.comp_update]
  cases o with
  | guard use =>
    obtain ⟨lock, huse⟩ := Option.isSome_iff_exists.mp hallowed
    have huses := h.uses hd.1 huse
    rwa [← Option.getD_some (a := lock) (b := w.lock), ← huse] at huses
  | get name => cases r <;> exact h.kept
  | _ => exact h.kept

/-- All addresses resolve, and what is found under the read guard is what is there. -/
structure Viewed (resolves : String → Prop) (w : Shared B) (γ : Nat → Turn) : Prop where
  resolved : ∀ name eps, w.discovery.endpoints.lookup name = some eps → ∀ e ∈ eps, resolves e.address
  found : ∀ t eps, (γ t).view = some eps → ∀ e ∈ eps, resolves e.address
  current : ∀ t eps, (γ t).view = some eps → (γ t).lock = .reading →
    ∃ name, (γ t).name = some name ∧ w.discovery.endpoints.lookup name = some eps

theorem Viewed.step {resolves : String → Prop} (h : Viewed resolves w γ) (hlocked : Locked w γ)
    (hregister : ∀ endpoint, (γ t).update = some (.register endpoint) → resolves endpoint.address)
    (hd : (γ t).demand o) (heffect : Effect t w w' o r) :
    Viewed resolves w' (Function.update γ t ((γ t).after o r)) := by
  obtain ⟨hallowed, rfl⟩ := heffect
  cases hu : update? o with
  | some u =>
    obtain ⟨hwriting, -, hupdate, -⟩ := due_of_update hd hu
    rw [after_update hu]
    refine ⟨fun name eps heps e he => ?_, ?_, ?_⟩
    · rw [moved_update hu, Update.apply_lookup] at heps
      split at heps
      · rcases Update.mem_change heps he with ⟨old, hold, he⟩ | rfl
        · exact h.resolved name old hold e he
        · exact hregister e hupdate
      · exact h.resolved name eps heps e he
    · exact (Function.forall_update_iff γ fun _ g => ∀ eps, g.view = some eps → ∀ e ∈ eps, resolves e.address).mpr
        ⟨h.found t, fun v _ => h.found v⟩
    · -- Nobody reads.
      refine (Function.forall_update_iff γ fun _ g => ∀ eps, g.view = some eps → g.lock = .reading →
        ∃ name, g.name = some name ∧ (moved t w o).discovery.endpoints.lookup name = some eps).mpr
        ⟨fun eps _ ht => ?_, fun v _ eps _ hv => ?_⟩
      · exact absurd ht (hlocked.not_reading hwriting)
      · exact absurd hv (hlocked.not_reading hwriting)
  | none =>
    have hsame := moved_endpoints (t := t) (w := w) hu
    refine ⟨by rw [hsame]; exact h.resolved, ?_, ?_⟩
    · refine (Function.forall_update_iff γ fun _ g => ∀ eps, g.view = some eps → ∀ e ∈ eps, resolves e.address).mpr
        ⟨fun eps heps => ?_, fun v _ => h.found v⟩
      cases o with
      | get name =>
        cases r with
        | some eps' =>
          obtain rfl := Option.some.inj heps
          exact h.resolved name _ hallowed.symm
        | none => exact h.found t eps heps
      | _ => exact h.found t eps heps
    · rw [hsame]
      refine (Function.forall_update_iff γ fun _ g => ∀ eps, g.view = some eps → g.lock = .reading →
        ∃ name, g.name = some name ∧ w.discovery.endpoints.lookup name = some eps).mpr
        ⟨fun eps heps ht => ?_, fun v _ => h.current v⟩
      cases o with
      | guard use =>
        have hread : use = .read := by
          cases use with
          | read => rfl
          | _ => cases ht
        exact nomatch (hd.2 hread).symm.trans heps
      | get name =>
        cases r with
        | some eps' =>
          obtain rfl := Option.some.inj heps
          exact ⟨name, hd.2, hallowed.symm⟩
        | none => exact h.current t eps heps ht
      | push | retain => cases hu
      | _ => exact h.current t eps heps ht

/-- The balancer of a name is built from these endpoints. -/
def Built (d : ServiceDiscovery B) (name : String) (eps : List ServiceEndpoint)
    (s : LoadBalancingStrategy) : Prop :=
  ∃ lb, (d.lbs s).lookup name = some lb ∧ B.tryFromIter (eps.map ServiceEndpoint.address) = some lb

/-- Where a balancer is not the one of the endpoints, some update owes it. -/
def Agreed (d : ServiceDiscovery B) (γ : Nat → Turn) : Prop :=
  ∀ name eps, d.endpoints.lookup name = some eps → ∀ s, Built d name eps s ∨ ∃ t, (γ t).Owes name s

theorem Turn.Owes.elsewhere {name : String} {s : LoadBalancingStrategy} {v : Nat} {g : Turn}
    (h : (γ v).Owes name s) (hg : v = t → g.Owes name s) : ∃ v, (Function.update γ t g v).Owes name s := by
  by_cases hv : v = t
  · exact ⟨t, by rw [Function.update_self]; exact hg hv⟩
  · exact ⟨v, by rwa [Function.update_of_ne hv]⟩

theorem Agreed.update (h : Agreed w.discovery γ) (hd : (γ t).demand o) (hu : update? o = some u) :
    Agreed (u.apply w.discovery) (Function.update γ t { γ t with updated := true }) := by
  obtain ⟨-, hupdated, hupdate, hbuilt⟩ := due_of_update hd hu
  intro name eps heps s
  by_cases hname : name = u.name
  · subst hname
    refine .inr ⟨t, ?_⟩
    rw [Function.update_self]
    exact ⟨congrArg (Option.map Update.name) hupdate, rfl, congrFun hbuilt s⟩
  · rw [Update.apply_lookup, if_neg hname] at heps
    refine (h name eps heps s).imp (fun ⟨lb, hlb, hbuild⟩ => ⟨lb, by rwa [Update.apply_lbs], hbuild⟩) ?_
    rintro ⟨v, hv⟩
    refine hv.elsewhere fun hvt => ?_
    subst hvt
    exact nomatch hupdated.symm.trans hv.updated

/-- What is stored under the read guard is the balancer of the endpoints. -/
theorem Agreed.insert (h : Agreed w.discovery γ) {resolves : String → Prop} (hviewed : Viewed resolves w γ)
    {s : LoadBalancingStrategy} {name : String} {lb : B.LoadBalancer s} (hd : (γ t).demand (.insertLb s name lb)) :
    Agreed (w.discovery.insertLb name s lb)
      (Function.update γ t { γ t with built := Function.update (γ t).built s true }) := by
  obtain ⟨hreading, hname, eps, hview, hlb⟩ := hd
  obtain ⟨name', hname', hcurrent⟩ := hviewed.current t eps hview hreading
  obtain rfl : name = name' := Option.some.inj (hname.symm.trans hname')
  intro name' eps' heps s'
  rw [insertLb_endpoints] at heps
  by_cases hs : s' = s
  · subst hs
    by_cases hn : name' = name
    · subst hn
      obtain rfl : eps = eps' := Option.some.inj (hcurrent.symm.trans heps)
      exact .inl ⟨lb, by rw [insertLb_self, AList.lookup_insert], hlb⟩
    · refine (h name' eps' heps s').imp (fun ⟨lb', hlb', hbuild⟩ => ⟨lb', ?_, hbuild⟩) fun ⟨v, hv⟩ => ?_
      · rwa [insertLb_self, AList.lookup_insert_ne hn]
      · refine hv.elsewhere fun hvt => ?_
        subst hvt
        exact absurd (Option.some.inj (hv.name.symm.trans hname)) hn
  · refine (h name' eps' heps s').imp (fun ⟨lb', hlb', hbuild⟩ => ⟨lb', ?_, hbuild⟩) fun ⟨v, hv⟩ => ?_
    · rwa [insertLb_other _ _ _ _ hs]
    · refine hv.elsewhere fun hvt => ?_
      subst hvt
      exact ⟨hv.name, hv.updated, (Function.update_of_ne hs ..).trans hv.unbuilt⟩

theorem Agreed.step (h : Agreed w.discovery γ) {resolves : String → Prop} (hviewed : Viewed resolves w γ)
    (hd : (γ t).demand o) (heffect : Effect t w w' o r) :
    Agreed w'.discovery (Function.update γ t ((γ t).after o r)) := by
  obtain ⟨hallowed, rfl⟩ := heffect
  -- An operation on the locks, by which nobody comes to owe less.
  have hsame {g : Turn} (hupdate : g.update = (γ t).update) (hupdated : g.updated = (γ t).updated)
      (hbuilt : g.built = (γ t).built) : Agreed w.discovery (Function.update γ t g) := by
    intro name eps heps s
    refine (h name eps heps s).imp_right fun ⟨v, hv⟩ => hv.elsewhere fun hvt => ?_
    subst hvt
    exact ⟨(congrArg (Option.map Update.name) hupdate).trans hv.name, hupdated.trans hv.updated,
      (congrFun hbuilt s).trans hv.unbuilt⟩
  cases o with
  | push endpoint => exact h.update hd rfl
  | retain name address => exact h.update hd rfl
  | insertLb s name lb => exact h.insert hviewed hd
  | get name =>
    cases r with
    | some eps => exact hsame rfl rfl rfl
    | none =>
      -- The name is not there, so that there is nothing to owe.
      intro name' eps heps s
      refine (h name' eps heps s).imp_right fun ⟨v, hv⟩ => hv.elsewhere fun hvt => ?_
      subst hvt
      obtain rfl := Option.some.inj (hd.2.symm.trans hv.name)
      exact nomatch hallowed.trans heps
  | _ => exact hsame rfl rfl rfl

/-- The registry is what the updates that were made have made of it, one after the other. -/
structure Recorded (strategy : LoadBalancingStrategy) (updates : List Update) (d : ServiceDiscovery B)
    (γ : Nat → Turn) : Prop where
  update : ∀ t, (γ t).update = updates[t]?
  listed : ∀ t endpoint, (γ t).update = some (.register endpoint) → (γ t).updated = true →
    d.endpoints.lookup endpoint.name ≠ none
  order : ∃ order : List Nat, order.Nodup ∧ (∀ t, t ∈ order ↔ (γ t).updated = true) ∧
    d.endpoints = ((order.filterMap (updates[·]?)).foldl Update.apply (withStrategy (B := B) strategy)).endpoints

theorem Recorded.step {strategy : LoadBalancingStrategy} {updates : List Update}
    (h : Recorded strategy updates w.discovery γ) (hd : (γ t).demand o) (heffect : Effect t w w' o r) :
    Recorded strategy updates w'.discovery (Function.update γ t ((γ t).after o r)) := by
  obtain ⟨-, rfl⟩ := heffect
  obtain ⟨order, hnodup, hmem, hfold⟩ := h.order
  have hupdate : ∀ v, (Function.update γ t ((γ t).after o r) v).update = updates[v]? :=
    (Function.forall_update_iff γ fun v g => g.update = updates[v]?).mpr
      ⟨(Turn.after_name _).trans (h.update t), fun v _ => h.update v⟩
  cases hu : update? o with
  | some u =>
    obtain ⟨-, hupdated, hself, -⟩ := due_of_update hd hu
    have hkeys (name : String) (hname : w.discovery.endpoints.lookup name ≠ none) :
        (u.apply w.discovery).endpoints.lookup name ≠ none := by
      rw [Update.apply_lookup]
      split
      · obtain ⟨eps, heps⟩ := Option.ne_none_iff_exists'.mp hname
        rw [heps]
        cases u <;> exact Option.some_ne_none _
      · exact hname
    rw [moved_update hu]
    refine ⟨hupdate, ?_, order ++ [t], ?_, ?_, ?_⟩
    · rw [after_update hu]
      refine (Function.forall_update_iff γ fun _ g => ∀ endpoint, g.update = some (.register endpoint) →
        g.updated = true → (u.apply w.discovery).endpoints.lookup endpoint.name ≠ none).mpr
        ⟨fun endpoint hendpoint _ => ?_, fun v _ endpoint hv hv' => ?_⟩
      · obtain rfl : u = .register endpoint := Option.some.inj (hself.symm.trans hendpoint)
        rw [Update.apply_lookup, if_pos (show endpoint.name = Update.name (.register endpoint) from rfl)]
        exact Option.some_ne_none _
      · exact hkeys _ (h.listed v endpoint hv hv')
    · refine List.nodup_append.mpr ⟨hnodup, List.nodup_singleton t, fun v hv v' hv' => ?_⟩
      obtain rfl := List.mem_singleton.mp hv'
      rintro rfl
      exact nomatch hupdated.symm.trans ((hmem v).mp hv)
    · rw [after_update hu]
      refine (Function.forall_update_iff γ fun v g => v ∈ order ++ [t] ↔ g.updated = true).mpr
        ⟨by simp, fun v hvt => ?_⟩
      simp [hvt, hmem]
    · have hu' : updates[t]? = some u := (h.update t).symm.trans hself
      rw [List.filterMap_append, List.foldl_append]
      simp only [List.filterMap_cons, hu', List.filterMap_nil, List.foldl_cons, List.foldl_nil]
      exact u.apply_congr hfold
  | none =>
    have hsame := moved_endpoints (t := t) (w := w) hu
    have hkeep := (γ t).after_updated (r := r) hu
    refine ⟨hupdate, ?_, order, hnodup, ?_, by rw [hsame, hfold]⟩
    · rw [hsame]
      refine (Function.forall_update_iff γ fun _ g => ∀ endpoint, g.update = some (.register endpoint) →
        g.updated = true → w.discovery.endpoints.lookup endpoint.name ≠ none).mpr
        ⟨fun endpoint hendpoint hup => ?_, fun v _ => h.listed v⟩
      exact h.listed t endpoint ((Turn.after_name _).symm.trans hendpoint) (hkeep.symm.trans hup)
    · exact (Function.forall_update_iff γ fun v g => v ∈ order ↔ g.updated = true).mpr
        ⟨by rw [hkeep]; exact hmem t, fun v _ => hmem v⟩

end

/-! ### Runs -/

/-- The registry, its locks and the accounts of its updates are in order. -/
structure Consistent (resolves : String → Prop) (strategy : LoadBalancingStrategy) (updates : List Update)
    (w : Shared B) (γ : Nat → Turn) : Prop where
  locked : Locked w γ
  viewed : Viewed resolves w γ
  agreed : Agreed w.discovery γ
  recorded : Recorded strategy updates w.discovery γ

section
variable {resolves : String → Prop} {strategy : LoadBalancingStrategy} {updates : List Update}

/-- The accounts before anything is done. -/
abbrev turns (updates : List Update) (t : Nat) : Turn := { update := updates[t]? }

end

/-! ### Two updates at once -/

/-- Both change the registry before either rebuilds; then they rebuild at once. -/
def overlapping : List (Nat × Unit) :=
  [0, 0, 0, 0, 1, 1, 1, 1, 0, 1, 0, 1, 1, 0, 0, 1, 1, 0, 1, 0].map fun t => (t, ())

end XProtocol.ServiceDiscovery
