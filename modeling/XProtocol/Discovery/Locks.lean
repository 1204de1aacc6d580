import XProtocol.Async.Alone
import XProtocol.Async.RwLock
import XProtocol.Discovery

/-! Service discovery under concurrent updates.

The registry has a read-write lock, and who waits to write keeps later readers out. An update
changes the registry under the write lock, gives the lock back, and then rebuilds the balancers
under the read lock, which it keeps until the last of them is stored. Each map of balancers has a lock of its own, which nobody keeps: to store a
balancer is one operation. By itself an update does what its function does
(`update_alone`). -/
namespace XProtocol
open Async (Program Interface RwLock)

namespace ServiceDiscovery
variable {B : Balancing}

inductive Op (B : Balancing) where
  /-- The `write()` and the `read()` of `endpoints`, and the drops of their guards. -/
  | guard (use : RwLock.Use)
  | push (endpoint : ServiceEndpoint)
  | retain (name address : String)
  /-- `endpoints.get(name)`. -/
  | get (name : String)
  /-- `lbs.write().insert(name, lb)`. -/
  | insertLb (s : LoadBalancingStrategy) (name : String) (lb : B.LoadBalancer s)

abbrev Calls (B : Balancing) : Interface where
  Op := Op B
  Ret
    | .get _ => Option (List ServiceEndpoint)
    | _ => Unit

/-! ### The methods -/

def op (o : Op B) : Program (Calls B) ((Calls B).Ret o) := @Program.op (Calls B) o

/-- `if let Ok(lb) = LoadBalancer::try_from_iter(addrs) { .. }`. -/
def building (s : LoadBalancingStrategy) (name : String) (addrs : List String) : Program (Calls B) Unit :=
  match B.tryFromIter addrs with
  | some lb => op (.insertLb s name lb)
  | none => pure ()

/-- `if let Some(eps) = endpoints.get(name) { .. }`. -/
def buildingAll (name : String) : Option (List ServiceEndpoint) → Program (Calls B) Unit
  | some eps => do
    let addrs := eps.map ServiceEndpoint.address
    building .roundRobin name addrs
    building .random name addrs
    building .consistentHash name addrs
  | none => pure ()

def rebuilding (name : String) : Program (Calls B) Unit := do
  op (.guard .read)
  let eps ← op (.get name)
  buildingAll name eps
  op (.guard .endRead)

def registering (endpoint : ServiceEndpoint) : Program (Calls B) Unit := do
  op (.guard .claim)
  op (.guard .write)
  op (.push endpoint)
  op (.guard .endWrite)
  rebuilding endpoint.name

def unregistering (name address : String) : Program (Calls B) Unit := do
  op (.guard .claim)
  op (.guard .write)
  op (.retain name address)
  op (.guard .endWrite)
  rebuilding name

/-! ### The registry as a machine -/

structure Shared (B : Balancing) where
  discovery : ServiceDiscovery B
  /-- The lock of the endpoints. -/
  lock : RwLock

/-- An operation of task `t`. -/
def performShared (t : Nat) : (o : Op B) → Shared B → Option ((Calls B).Ret o × Shared B)
  | .guard use, w => (w.lock.use t use).map fun lock => ((), { w with lock })
  | .push endpoint, w => some ((), { w with discovery := w.discovery.push endpoint })
  | .retain name address, w => some ((), { w with discovery := w.discovery.retain name address })
  | .get name, w => some (w.discovery.endpoints.lookup name, w)
  | .insertLb s name lb, w => some ((), { w with discovery := w.discovery.insertLb name s lb })

def machine : Async.Machine (Calls B) (Shared B) Unit where
  perform t o _ w := performShared t o w

inductive Update where
  | register (endpoint : ServiceEndpoint)
  | unregister (name address : String)

namespace Update

def name : Update → String
  | register endpoint => endpoint.name
  | unregister name _ => name

/-- What the update does to the registry itself. -/
def apply (d : ServiceDiscovery B) : Update → ServiceDiscovery B
  | register endpoint => d.push endpoint
  | unregister name address => d.retain name address

def perform (d : ServiceDiscovery B) : Update → ServiceDiscovery B
  | register endpoint => d.register endpoint
  | unregister name address => d.unregister name address

def task : Update → Program (Calls B) Unit
  | register endpoint => registering endpoint
  | unregister name address => unregistering name address

end Update

/-- A registry that nobody uses. -/
def Shared.free (d : ServiceDiscovery B) : Shared B := ⟨d, .free⟩

/-- A new registry, and the updates that are going to be made. -/
def start (strategy : LoadBalancingStrategy) (updates : List Update) : Async.Config (Calls B) (Shared B) Unit :=
  ⟨.free (withStrategy strategy), updates.map Update.task⟩

/-! ### An update by itself -/

section Alone
open Async

/-- The discipline of an update by itself: each operation can be performed. -/
abbrev unhindered : Discipline (Calls B) (Shared B) := machine.sure fun _ _ _ => True

/-- An operation that answers `r`, and what follows. -/
theorem safe_unhindered {o : Op B} {k : (Calls B).Ret o → Program (Calls B) Unit} {Q : Shared B → Unit → Prop}
    {w w' : Shared B} {r : (Calls B).Ret o} (h : performShared 0 o w = some (r, w'))
    (hk : Safe unhindered (k r) Q w') : Safe unhindered (op o >>= k) Q w := by
  refine ⟨⟨(), (r, w'), trivial, h⟩, ?_⟩
  rintro r' w'' ⟨_, _, hr⟩
  obtain ⟨rfl, rfl⟩ : r = r' ∧ w' = w'' := by simpa using h.symm.trans hr
  exact hk

theorem building_alone (s : LoadBalancingStrategy) (name : String) (addrs : List String) (d : ServiceDiscovery B)
    (lock : RwLock) :
    Safe unhindered (building s name addrs) (fun w _ => w = ⟨d.build s name addrs, lock⟩) ⟨d, lock⟩ := by
  unfold building build
  cases B.tryFromIter addrs with
  | some lb =>
    show Safe unhindered (op (.insertLb s name lb) >>= Program.done) _ _
    exact safe_unhindered rfl ((safe_done ..).mpr rfl)
  | none => exact (safe_done ..).mpr rfl

theorem rebuilding_alone (d : ServiceDiscovery B) (name : String) :
    Safe unhindered (rebuilding name) (fun w _ => w = .free (d.rebuildLoadBalancers name)) (.free d) := by
  have hall : Safe unhindered (buildingAll name (d.endpoints.lookup name))
      (fun w _ => w = ⟨d.rebuildLoadBalancers name, none, [0]⟩) ⟨d, none, [0]⟩ := by
    unfold rebuildLoadBalancers
    cases d.endpoints.lookup name with
    | none => exact (safe_done ..).mpr rfl
    | some eps =>
      unfold buildingAll
      rw [safe_bind]
      refine safe_mono (building_alone ..) ?_
      rintro _ _ rfl
      rw [safe_bind]
      refine safe_mono (building_alone ..) ?_
      rintro _ _ rfl
      exact building_alone ..
  refine safe_unhindered rfl (safe_unhindered rfl ((safe_bind ..).mpr (safe_mono hall ?_)))
  rintro _ _ rfl
  show Safe unhindered (op (.guard .endRead) >>= Program.done) _ _
  exact safe_unhindered rfl ((safe_done ..).mpr rfl)

/-- **By itself, an update does what its function does**, and nothing hinders it. -/
theorem update_alone (d : ServiceDiscovery B) (u : Update) :
    (⟨.free d, [u.task]⟩ : Config (Calls B) (Shared B) Unit).Inevitably machine
      (Config.Performs fun _ _ _ _ => True) fun s => s.returned 0 ≠ none ∧ s.world = .free (u.perform d) := by
  have hsafe : Safe unhindered u.task (fun w _ => w = .free (u.perform d)) (.free d) := by
    cases u with
    | register endpoint =>
      exact safe_unhindered rfl (safe_unhindered rfl (safe_unhindered rfl (safe_unhindered rfl (rebuilding_alone _ _))))
    | unregister name address =>
      exact safe_unhindered rfl (safe_unhindered rfl (safe_unhindered rfl (safe_unhindered rfl (rebuilding_alone _ _))))
  refine Config.Inevitably.mono ?_ (inevitably_returns hsafe)
  rintro s ⟨_, ha, hs⟩
  exact ⟨by simp [ha], hs⟩

end Alone

end ServiceDiscovery

end XProtocol
