import XProtocol.Discovery

/-! Which backends are selected.

A balancer follows the registry as long as it can be rebuilt. Where an address is left that
does not resolve, the balancer stays as it was, and if it has the address that was removed,
it goes on choosing it (`select_registered`). -/
namespace XProtocol.ServiceDiscovery
open Json (Bytes)

variable {B : Balancing}

/-! ### Runs -/

inductive Call where
  | register (endpoint : ServiceEndpoint)
  | unregister (name address : String)
  | setBackendHealth (name address : String) (healthy : Bool)

def perform (d : ServiceDiscovery B) : Call → ServiceDiscovery B
  | .register endpoint => d.register endpoint
  | .unregister name address => d.unregister name address
  | .setBackendHealth name address healthy => d.setBackendHealth name address healthy

def run (d : ServiceDiscovery B) (calls : List Call) : ServiceDiscovery B := calls.foldl perform d

/-- Every call of the run meets `P`. -/
def Along (P : ServiceDiscovery B → Call → Prop) (d : ServiceDiscovery B) : List Call → Prop
  | [] => True
  | call :: rest => P d call ∧ (d.perform call).Along P rest

/-- `a` is the address of an endpoint that is registered under the name. -/
def Registered (d : ServiceDiscovery B) (name a : String) : Prop := ∃ e ∈ d.discover name, e.address = a

/-- The addresses that the balancer of a name knows. -/
def known (d : ServiceDiscovery B) (s : LoadBalancingStrategy) (name : String) : List String :=
  ((d.lbs s).lookup name).elim [] B.backends

/-- The balancers in use know registered addresses only. -/
def Follows (d : ServiceDiscovery B) : Prop := ∀ name, ∀ a ∈ d.known d.strategy name, d.Registered name a

/-- Where an address is removed, the rest resolve, or else the balancer in use does not know it. -/
def Releases (resolves : String → Prop) (d : ServiceDiscovery B) : Call → Prop
  | .unregister name address =>
    (∀ e ∈ d.discover name, e.address ≠ address → resolves e.address) ∨ address ∉ d.known d.strategy name
  | _ => True

section
variable {resolves : String → Prop} {d : ServiceDiscovery B} {s : LoadBalancingStrategy} {name a : String}

/-! ### One call -/

theorem selected_known (hB : B.Documented resolves) {key : Bytes} {turn : Nat}
    (h : d.selectWithKey name key turn = some a) : a ∈ d.known d.strategy name := by
  rw [selectWithKey_eq] at h
  obtain ⟨lb, hlb, ha⟩ := Option.bind_eq_some_iff.mp h
  rw [known, hlb]
  exact hB.chosen ha

theorem discover_rebuild (name' : String) : (d.rebuildLoadBalancers name').discover name = d.discover name := by
  rw [discover, rebuild_endpoints, discover]

theorem known_rebuild_other {name' : String} (h : name' ≠ name) :
    (d.rebuildLoadBalancers name).known s name' = d.known s name' := by
  rw [known, rebuild_lookup, if_neg h, Option.none_or, known]

/-- Where not every address resolves, the balancers stay. -/
theorem known_rebuild_stays (hB : B.Documented resolves) (h : ∃ e ∈ d.discover name, ¬ resolves e.address) :
    (d.rebuildLoadBalancers name).known s name = d.known s name := by
  obtain ⟨e, he, hnot⟩ := h
  have hnone : ((d.endpoints.lookup name).bind fun eps =>
      B.tryFromIter (s := s) (eps.map ServiceEndpoint.address)) = none := by
    unfold discover at he
    cases hlookup : d.endpoints.lookup name with
    | none => rfl
    | some eps =>
      rw [hlookup] at he
      rw [Option.bind_some, ← Option.not_isSome_iff_eq_none, hB.builds]
      exact fun hall => hnot (hall _ (List.mem_map_of_mem he))
  rw [known, rebuild_lookup, if_pos rfl, hnone, Option.none_or, known]

/-- Where every address resolves, the balancers know no others. -/
theorem known_rebuild (hB : B.Documented resolves) (hall : ∀ e ∈ d.discover name, resolves e.address)
    (hold : d.endpoints.lookup name = none → d.known s name = [])
    (ha : a ∈ (d.rebuildLoadBalancers name).known s name) : d.Registered name a := by
  rw [known, rebuild_lookup, if_pos rfl] at ha
  unfold discover at hall
  cases hlookup : d.endpoints.lookup name with
  | none =>
    rw [hlookup, Option.bind_none, Option.none_or] at ha
    have hknown : a ∈ d.known s name := ha
    rw [hold hlookup] at hknown
    cases hknown
  | some eps =>
    rw [hlookup] at hall ha
    have hsome := (hB.builds s (eps.map ServiceEndpoint.address)).mpr (List.forall_mem_map.mpr hall)
    obtain ⟨lb, hlb⟩ := Option.isSome_iff_exists.mp hsome
    rw [Option.bind_some, hlb] at ha
    obtain ⟨e, he, rfl⟩ := List.mem_map.mp ((hB.built hlb a).mp ha)
    exact ⟨e, by rwa [discover, hlookup], rfl⟩

/-- A name without endpoints has no balancer that knows an address. -/
theorem Follows.nil (h : d.Follows) (hnone : d.endpoints.lookup name = none) : d.known d.strategy name = [] := by
  refine List.eq_nil_iff_forall_not_mem.mpr fun a ha => ?_
  obtain ⟨e, he, -⟩ := h name a ha
  rw [discover, hnone] at he
  cases he

/-- The balancers of a name are rebuilt: what is to be shown if this fails. -/
theorem follows_rebuild (hB : B.Documented resolves)
    (hothers : ∀ name' ≠ name, ∀ a ∈ d.known d.strategy name', d.Registered name' a)
    (hnil : d.endpoints.lookup name = none → d.known d.strategy name = [])
    (hfails : (∃ e ∈ d.discover name, ¬ resolves e.address) → ∀ a ∈ d.known d.strategy name, d.Registered name a) :
    (d.rebuildLoadBalancers name).Follows := by
  intro name' a ha
  rw [rebuild_strategy] at ha
  show ∃ e ∈ _, _
  rw [discover_rebuild]
  by_cases hname : name' = name
  · subst hname
    by_cases hall : ∀ e ∈ d.discover name', resolves e.address
    · exact known_rebuild hB hall hnil ha
    · have hex : ∃ e ∈ d.discover name', ¬ resolves e.address := by simpa using hall
      rw [known_rebuild_stays hB hex] at ha
      exact hfails hex a ha
  · rw [known_rebuild_other hname] at ha
    exact hothers name' hname a ha

/-- An endpoint that is registered harms nobody. -/
theorem follows_register (hB : B.Documented resolves) (h : d.Follows) (endpoint : ServiceEndpoint) :
    (d.register endpoint).Follows := by
  have hknown (name : String) : (d.push endpoint).known d.strategy name = d.known d.strategy name := by
    rw [known, push_lbs, known]
  have hkept {name a : String} (ha : d.Registered name a) : (d.push endpoint).Registered name a := by
    obtain ⟨e, he, rfl⟩ := ha
    refine ⟨e, ?_, rfl⟩
    rw [push_discover]
    split
    · exact List.mem_append_left _ he
    · exact he
  refine follows_rebuild hB (fun name' _ a ha => hkept (h name' a (by rwa [← hknown]))) (fun hnone => ?_)
    fun _ a ha => hkept (h _ a (by rwa [← hknown]))
  rw [push, AList.lookup_insert] at hnone
  cases hnone

/-- **A removal leaves the balancer behind exactly if it cannot be rebuilt and knows the address.** -/
theorem follows_unregister (hB : B.Documented resolves) (h : d.Follows) (address : String) :
    (d.unregister name address).Follows ↔ Releases resolves d (.unregister name address) := by
  have hknown (name' : String) : (d.retain name address).known d.strategy name' = d.known d.strategy name' := by
    rw [known, retain_lbs, known]
  have hleft : (d.retain name address).discover name = (d.discover name).filter fun e => e.address ≠ address := by
    rw [retain_discover, if_pos rfl]
  constructor
  · intro hfollows
    by_contra hnot
    simp only [Releases, not_or, not_forall, not_not] at hnot
    obtain ⟨⟨e, he, hne, hfails⟩, haddress⟩ := hnot
    have hex : ∃ e ∈ (d.retain name address).discover name, ¬ resolves e.address :=
      ⟨e, by rw [hleft]; exact List.mem_filter.mpr ⟨he, decide_eq_true hne⟩, hfails⟩
    obtain ⟨e, he, heq⟩ := hfollows name address (by
      rw [unregister, rebuild_strategy, retain_strategy, known_rebuild_stays hB hex, hknown]
      exact haddress)
    rw [unregister, discover_rebuild, hleft] at he
    exact of_decide_eq_true (List.mem_filter.mp he).2 heq
  · intro hreleases
    refine follows_rebuild hB (fun name' hname a ha => ?_) (fun hnone => ?_) fun ⟨e, he, hfails⟩ a ha => ?_
    · rw [retain_strategy, hknown] at ha
      show ∃ e ∈ _, _
      rw [retain_discover, if_neg hname]
      exact h name' a ha
    · rw [retain_strategy, hknown]
      refine h.nil ?_
      unfold retain at hnone
      split at hnone
      · rw [AList.lookup_insert] at hnone
        cases hnone
      · exact hnone
    · rw [retain_strategy, hknown] at ha
      rw [hleft, List.mem_filter] at he
      have hgone : address ∉ d.known d.strategy name := hreleases.resolve_left fun hall =>
        hfails (hall e he.1 (of_decide_eq_true he.2))
      obtain ⟨e, he, rfl⟩ := h name a ha
      refine ⟨e, ?_, rfl⟩
      rw [hleft]
      exact List.mem_filter.mpr ⟨he, decide_eq_true fun heq => hgone (heq ▸ ha)⟩

theorem follows_iff (hB : B.Documented resolves) (h : d.Follows) (call : Call) :
    (d.perform call).Follows ↔ Releases resolves d call := by
  cases call with
  | register endpoint => exact iff_of_true (follows_register hB h endpoint) trivial
  | unregister name address => exact follows_unregister hB h address
  | setBackendHealth name address healthy => exact iff_of_true h trivial

@[simp] theorem perform_strategy (call : Call) : (d.perform call).strategy = d.strategy := by
  cases call with
  | register endpoint => exact rebuild_strategy _ _
  | unregister name address => exact (rebuild_strategy _ _).trans (retain_strategy _ _ _)
  | setBackendHealth name address healthy => rfl

theorem run_strategy (calls : List Call) : (d.run calls).strategy = d.strategy := by
  induction calls generalizing d with
  | nil => rfl
  | cons call rest ih => exact ih.trans (perform_strategy call)

theorem follows_new {strategy : LoadBalancingStrategy} : (withStrategy (B := B) strategy).Follows := by
  intro name a ha
  have hnil (s : LoadBalancingStrategy) : (withStrategy (B := B) strategy).known s name = [] := by
    cases s <;> rfl
  rw [hnil] at ha
  cases ha

theorem follows_run (hB : B.Documented resolves) (h : d.Follows) {calls : List Call}
    (halong : d.Along (Releases resolves) calls) : (d.run calls).Follows := by
  induction calls generalizing d with
  | nil => exact h
  | cons call rest ih => exact ih ((follows_iff hB h call).mpr halong.1) halong.2

end

/-! ### Runs -/

/-- A new registry, after these calls. -/
def reached (strategy : LoadBalancingStrategy) (calls : List Call) : ServiceDiscovery B :=
  (withStrategy strategy).run calls

/-- Whatever is selected under a name is registered under it. -/
def SelectsRegistered (d : ServiceDiscovery B) : Prop :=
  ∀ name key turn a, d.selectWithKey name key turn = some a ∨ d.select name turn = some a → d.Registered name a

/-- **Only what is registered is selected**, after every run in which no removal leaves the balancer in
use behind; and a removal that does leaves it with the address that is gone. -/
theorem select_registered {resolves : String → Prop} (hB : B.Documented resolves) (strategy : LoadBalancingStrategy)
    (calls : List Call) (halong : (withStrategy (B := B) strategy).Along (Releases resolves) calls) :
    (reached (B := B) strategy calls).SelectsRegistered ∧
    ∀ call, ¬ Releases resolves (reached (B := B) strategy calls) call →
      ∃ name, ∃ a ∈ ((reached (B := B) strategy calls).perform call).known strategy name,
        ¬ ((reached (B := B) strategy calls).perform call).Registered name a := by
  have hfollows : (reached (B := B) strategy calls).Follows := follows_run hB follows_new halong
  refine ⟨fun name key turn a ha => ?_, fun call hnot => ?_⟩
  · rw [select_eq] at ha
    exact hfollows name a (ha.elim (selected_known hB) (selected_known hB))
  · have hleft : ¬ ((reached (B := B) strategy calls).perform call).Follows := fun h =>
      hnot ((follows_iff hB hfollows call).mp h)
    have hstrategy : ((reached (B := B) strategy calls).perform call).strategy = strategy :=
      (perform_strategy call).trans (run_strategy calls)
    unfold Follows at hleft
    rw [hstrategy] at hleft
    push Not at hleft
    exact hleft

/-! ### A balancer that is left behind -/

/-- A registry of a service at this address and behind a socket. -/
def twoEndpoints : List Call :=
  [.register (.new "users" "127.0.0.1:8001"), .register (.new "users" "/tmp/users.sock")]

theorem select_registered_removing :
    (reached (B := .listing fun a => a == "127.0.0.1:8001") .random
      (twoEndpoints ++ [.unregister "users" "/tmp/users.sock"])).SelectsRegistered := by
  refine (select_registered (Balancing.listing_documented _) .random _ ?_).1
  show True ∧ True ∧ (_ ∨ _) ∧ True
  exact ⟨trivial, trivial, .inl (by decide +kernel), trivial⟩

/-- The address that resolves is removed, and the socket stays: the balancer chooses the address. -/
theorem unregistered_selected :
    (Balancing.listing fun a => a == "127.0.0.1:8001").Documented (fun a => (a == "127.0.0.1:8001") = true) ∧
    ¬ (reached (B := .listing fun a => a == "127.0.0.1:8001") .roundRobin
      (twoEndpoints ++ [.unregister "users" "127.0.0.1:8001"])).SelectsRegistered := by
  refine ⟨Balancing.listing_documented _, fun h => ?_⟩
  obtain ⟨e, he, heq⟩ := h "users" [] 0 "127.0.0.1:8001" (.inr (by decide +kernel))
  have hnone : ∀ e ∈ (reached (B := .listing fun a => a == "127.0.0.1:8001") .roundRobin
      (twoEndpoints ++ [.unregister "users" "127.0.0.1:8001"])).discover "users", e.address ≠ "127.0.0.1:8001" := by
    decide +kernel
  exact hnone e he heq

end XProtocol.ServiceDiscovery
