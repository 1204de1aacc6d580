import Mathlib.Data.List.AList
import XProtocol.Json.Value

/-! Service discovery.

A registry keeps the endpoints of every service, and beside it, for each strategy, a load
balancer over the addresses that the service had when the balancer was last built. To build
a balancer and to choose one of its backends is a library's business (`Balancing`). It
cannot build one over an address that does not resolve: then the balancer stays that was
there. -/
namespace XProtocol
open Json (Bytes)

structure ServiceEndpoint where
  name : String
  address : String
  weight : Nat
  metadata : List (String × String)
  deriving DecidableEq

def ServiceEndpoint.new (name address : String) : ServiceEndpoint :=
  { name, address, weight := 1, metadata := [] }

inductive LoadBalancingStrategy where
  | roundRobin
  | random
  | consistentHash
  deriving DecidableEq

/-- The load balancers of a library. -/
structure Balancing where
  LoadBalancer : LoadBalancingStrategy → Type
  tryFromIter : {s : LoadBalancingStrategy} → List String → Option (LoadBalancer s)
  /-- The addresses of its backends. -/
  backends : {s : LoadBalancingStrategy} → LoadBalancer s → List String
  /-- The address of the backend that it chooses for a key, at some turn of the round robin or
  throw of the dice. -/
  select : {s : LoadBalancingStrategy} → LoadBalancer s → (key : Bytes) → (maxIterations turn : Nat) → Option String

/-- What the library promises, given which addresses resolve. -/
structure Balancing.Documented (B : Balancing) (resolves : String → Prop) : Prop where
  /-- A balancer can be built over addresses that all resolve, over none as well, and over no others. -/
  builds : ∀ s addrs, (B.tryFromIter (s := s) addrs).isSome ↔ ∀ a ∈ addrs, resolves a
  /-- Its backends are these addresses. -/
  built : ∀ {s addrs} {lb : B.LoadBalancer s}, B.tryFromIter addrs = some lb → ∀ a, a ∈ B.backends lb ↔ a ∈ addrs
  /-- It chooses among its backends. -/
  chosen : ∀ {s} {lb : B.LoadBalancer s} {key maxIterations turn a},
    B.select lb key maxIterations turn = some a → a ∈ B.backends lb

/-- A library whose balancers are the addresses, taken in turn. -/
def Balancing.listing (resolves : String → Bool) : Balancing where
  LoadBalancer _ := List String
  tryFromIter addrs := if addrs.all resolves then some addrs else none
  backends lb := lb
  select lb _ _ turn := lb[turn % lb.length]?

theorem Balancing.listing_documented (resolves : String → Bool) :
    (listing resolves).Documented fun a => resolves a = true where
  builds s addrs := by
    show (if addrs.all resolves then some addrs else none).isSome ↔ _
    rw [← List.all_eq_true]
    cases addrs.all resolves <;> simp
  built h a := by
    obtain ⟨-, heq⟩ := Option.ite_none_right_eq_some.mp h
    cases heq
    rfl
  chosen h := List.mem_of_getElem? h

structure ServiceDiscovery (B : Balancing) where
  endpoints : AList fun _ : String => List ServiceEndpoint
  roundRobinLbs : AList fun _ : String => B.LoadBalancer .roundRobin
  randomLbs : AList fun _ : String => B.LoadBalancer .random
  consistentLbs : AList fun _ : String => B.LoadBalancer .consistentHash
  strategy : LoadBalancingStrategy

namespace ServiceDiscovery
variable {B : Balancing}

/-- `new().with_strategy(strategy)`. -/
def withStrategy (strategy : LoadBalancingStrategy) : ServiceDiscovery B :=
  { endpoints := ∅, roundRobinLbs := ∅, randomLbs := ∅, consistentLbs := ∅, strategy }

/-- The balancers of a strategy. -/
def lbs (d : ServiceDiscovery B) : (s : LoadBalancingStrategy) → AList fun _ : String => B.LoadBalancer s
  | .roundRobin => d.roundRobinLbs
  | .random => d.randomLbs
  | .consistentHash => d.consistentLbs

def insertLb (d : ServiceDiscovery B) (name : String) :
    (s : LoadBalancingStrategy) → B.LoadBalancer s → ServiceDiscovery B
  | .roundRobin, lb => { d with roundRobinLbs := d.roundRobinLbs.insert name lb }
  | .random, lb => { d with randomLbs := d.randomLbs.insert name lb }
  | .consistentHash, lb => { d with consistentLbs := d.consistentLbs.insert name lb }

/-- `endpoints.entry(name).or_default().push(endpoint)`. -/
def push (d : ServiceDiscovery B) (endpoint : ServiceEndpoint) : ServiceDiscovery B :=
  let eps := (d.endpoints.lookup endpoint.name).getD []
  { d with endpoints := d.endpoints.insert endpoint.name (eps ++ [endpoint]) }

/-- `if let Some(eps) = endpoints.get_mut(name) { eps.retain(|e| e.address != address) }`. -/
def retain (d : ServiceDiscovery B) (name address : String) : ServiceDiscovery B :=
  match d.endpoints.lookup name with
  | some eps => { d with endpoints := d.endpoints.insert name (eps.filter fun e => e.address ≠ address) }
  | none => d

/-- `if let Ok(lb) = LoadBalancer::try_from_iter(addrs) { .. }` for the balancers of a strategy. -/
def build (d : ServiceDiscovery B) (s : LoadBalancingStrategy) (name : String) (addrs : List String) :
    ServiceDiscovery B :=
  match B.tryFromIter addrs with
  | some lb => d.insertLb name s lb
  | none => d

def rebuildLoadBalancers (d : ServiceDiscovery B) (name : String) : ServiceDiscovery B :=
  match d.endpoints.lookup name with
  | some eps =>
    let addrs := eps.map ServiceEndpoint.address
    ((d.build .roundRobin name addrs).build .random name addrs).build .consistentHash name addrs
  | none => d

def register (d : ServiceDiscovery B) (endpoint : ServiceEndpoint) : ServiceDiscovery B :=
  (d.push endpoint).rebuildLoadBalancers endpoint.name

def unregister (d : ServiceDiscovery B) (name address : String) : ServiceDiscovery B :=
  (d.retain name address).rebuildLoadBalancers name

def discover (d : ServiceDiscovery B) (name : String) : List ServiceEndpoint := (d.endpoints.lookup name).getD []

def selectWithKey (d : ServiceDiscovery B) (name : String) (key : Bytes) (turn : Nat) : Option String :=
  match d.strategy with
  | .roundRobin => (d.roundRobinLbs.lookup name).bind fun lb => B.select lb key 256 turn
  | .random => (d.randomLbs.lookup name).bind fun lb => B.select lb key 256 turn
  | .consistentHash => (d.consistentLbs.lookup name).bind fun lb => B.select lb key 256 turn

def select (d : ServiceDiscovery B) (name : String) (turn : Nat) : Option String :=
  match d.strategy with
  | .roundRobin => (d.roundRobinLbs.lookup name).bind fun lb => B.select lb [] 256 turn
  | .random => (d.randomLbs.lookup name).bind fun lb => B.select lb [] 256 turn
  | .consistentHash => (d.consistentLbs.lookup name).bind fun lb => B.select lb [] 256 turn

/-- The result of a probe is dropped. -/
def setBackendHealth (d : ServiceDiscovery B) (_name _address : String) (_healthy : Bool) : ServiceDiscovery B := d

def getBackendHealth (_d : ServiceDiscovery B) (_name _address : String) : Bool := true

/-! ### What changes what -/

section
variable (d : ServiceDiscovery B) (name : String) (s : LoadBalancingStrategy)

theorem select_eq (turn : Nat) : d.select name turn = d.selectWithKey name [] turn := rfl

theorem selectWithKey_eq (key : Bytes) (turn : Nat) :
    d.selectWithKey name key turn = ((d.lbs d.strategy).lookup name).bind fun lb => B.select lb key 256 turn := by
  obtain ⟨endpoints, roundRobinLbs, randomLbs, consistentLbs, strategy⟩ := d
  cases strategy <;> rfl

@[simp] theorem insertLb_endpoints (lb : B.LoadBalancer s) : (d.insertLb name s lb).endpoints = d.endpoints := by
  cases s <;> rfl

@[simp] theorem insertLb_strategy (lb : B.LoadBalancer s) : (d.insertLb name s lb).strategy = d.strategy := by
  cases s <;> rfl

@[simp] theorem insertLb_self (lb : B.LoadBalancer s) :
    (d.insertLb name s lb).lbs s = (d.lbs s).insert name lb := by
  cases s <;> rfl

theorem insertLb_other (lb : B.LoadBalancer s) {s' : LoadBalancingStrategy} (h : s' ≠ s) :
    (d.insertLb name s lb).lbs s' = d.lbs s' := by
  cases s <;> cases s' <;> first | rfl | exact absurd rfl h

theorem push_lbs (endpoint : ServiceEndpoint) : (d.push endpoint).lbs s = d.lbs s := by
  cases s <;> rfl

theorem retain_lbs (address : String) : (d.retain name address).lbs s = d.lbs s := by
  unfold retain
  split <;> cases s <;> rfl

@[simp] theorem retain_strategy (address : String) : (d.retain name address).strategy = d.strategy := by
  unfold retain
  split <;> rfl

theorem push_discover (endpoint : ServiceEndpoint) :
    (d.push endpoint).discover name =
      if name = endpoint.name then d.discover name ++ [endpoint] else d.discover name := by
  unfold discover push
  split
  · next h => rw [h, AList.lookup_insert, Option.getD_some]
  · next h => rw [AList.lookup_insert_ne h]

theorem retain_discover (name' address : String) :
    (d.retain name' address).discover name =
      if name = name' then (d.discover name).filter fun e => e.address ≠ address else d.discover name := by
  by_cases h : name = name'
  · subst h
    cases hlookup : d.endpoints.lookup name <;> simp [discover, retain, hlookup]
  · cases hlookup : d.endpoints.lookup name' <;> simp [discover, retain, hlookup, h, AList.lookup_insert_ne]

@[simp] theorem build_endpoints (addrs : List String) : (d.build s name addrs).endpoints = d.endpoints := by
  unfold build
  split <;> simp

@[simp] theorem build_strategy (addrs : List String) : (d.build s name addrs).strategy = d.strategy := by
  unfold build
  split <;> simp

theorem build_lookup (addrs : List String) (s' : LoadBalancingStrategy) (name' : String) :
    ((d.build s name addrs).lbs s').lookup name' =
      (if s' = s ∧ name' = name then B.tryFromIter addrs else none).or ((d.lbs s').lookup name') := by
  unfold build
  by_cases hs : s' = s
  · subst hs
    by_cases hname : name' = name
    · subst hname
      cases B.tryFromIter addrs <;> simp
    · cases B.tryFromIter addrs <;> simp [hname, AList.lookup_insert_ne]
  · split
    · simp [insertLb_other d name s _ hs, hs]
    · simp [hs]

@[simp] theorem rebuild_endpoints : (d.rebuildLoadBalancers name).endpoints = d.endpoints := by
  unfold rebuildLoadBalancers
  split <;> simp

/-- Each strategy gets a new balancer for the name, if one can be built. -/
theorem rebuild_lookup (name' : String) :
    ((d.rebuildLoadBalancers name).lbs s).lookup name' =
      (if name' = name then
        (d.endpoints.lookup name).bind fun eps => B.tryFromIter (eps.map ServiceEndpoint.address)
      else none).or ((d.lbs s).lookup name') := by
  unfold rebuildLoadBalancers
  cases d.endpoints.lookup name with
  | none => simp
  | some eps => cases s <;> simp [build_lookup]

@[simp] theorem rebuild_strategy : (d.rebuildLoadBalancers name).strategy = d.strategy := by
  unfold rebuildLoadBalancers
  split <;> simp

end

end ServiceDiscovery

end XProtocol
