import XProtocol.Discovery.Selection

/-! What becomes of the health of backends.

A background task probes every endpoint and reports what it finds, and the registry drops
the report. So a run selects what it would have selected had nothing been reported
(`run_unreported`), and the health that can be asked for is what was reported last only
as long as nothing worse than health was (`health_steers_iff`). -/
namespace XProtocol.ServiceDiscovery
open Json (Bytes)

variable {B : Balancing}

/-! ### The probing loop -/

def listServices (d : ServiceDiscovery B) : List String := d.endpoints.keys

/-- The reports of one `check_all_services`, which goes through the services in some order. What a
probe finds, the environment chooses. -/
def checkAllServices (d : ServiceDiscovery B) (services : List String)
    (healthy : String → String → Bool) : List Call :=
  services.flatMap fun name => (d.discover name).map fun e => .setBackendHealth name e.address
    (healthy name e.address)

def Call.isReport : Call → Bool
  | .setBackendHealth .. => true
  | _ => false

theorem checkAllServices_reports (d : ServiceDiscovery B) (services : List String)
    (healthy : String → String → Bool) :
    ∀ call ∈ d.checkAllServices services healthy, call.isReport = true := by
  intro call hcall
  obtain ⟨name, -, hmem⟩ := List.mem_flatMap.mp hcall
  obtain ⟨e, -, rfl⟩ := List.mem_map.mp hmem
  rfl

/-! ### What is reported -/

/-- What was last reported of a backend; it is healthy if nothing was. -/
def lastReported (calls : List Call) (name address : String) : Bool :=
  calls.foldl (fun last call => match call with
    | .setBackendHealth name' address' healthy => if name' = name ∧ address' = address then healthy else last
    | _ => last) true

/-- Reports change nothing. -/
theorem perform_report {d : ServiceDiscovery B} {call : Call} (h : call.isReport = true) : d.perform call = d := by
  cases call with
  | setBackendHealth name address healthy => rfl
  | _ => cases h

/-- **A run ends where it would have ended without reports.** -/
theorem run_unreported (d : ServiceDiscovery B) (calls : List Call) :
    d.run calls = d.run (calls.filter fun call => !call.isReport) := by
  induction calls generalizing d with
  | nil => rfl
  | cons call rest ih =>
    show (d.perform call).run rest = _
    cases h : call.isReport with
    | true => rw [perform_report h, List.filter_cons_of_neg (by simp [h]), ih]
    | false =>
      rw [List.filter_cons_of_pos (by simp [h]), ih]
      rfl

/-! ### What it ought to do -/

/-- Health is what was last reported, and no backend is selected that is unhealthy while another of
its name is healthy. -/
structure Steers (d : ServiceDiscovery B) (calls : List Call) : Prop where
  reported : ∀ name address, d.getBackendHealth name address = lastReported calls name address
  spared : ∀ name key turn a, d.selectWithKey name key turn = some a ∨ d.select name turn = some a →
    lastReported calls name a = false → ∀ b, d.Registered name b → lastReported calls name b = false

/-- **Health steers traffic as long as nothing is unhealthy**, and no longer: and what is selected
never depends on it. -/
theorem health_steers_iff (strategy : LoadBalancingStrategy) (calls : List Call) :
    ((reached (B := B) strategy calls).Steers calls ↔ ∀ name address, lastReported calls name address = true) ∧
    reached (B := B) strategy calls = reached strategy (calls.filter fun call => !call.isReport) := by
  refine ⟨⟨fun h name address => (h.reported name address).symm,
    fun h => ⟨fun name address => (h name address).symm,
    fun name key turn a _ ha => ?_⟩⟩, run_unreported _ calls⟩
  rw [h name a] at ha
  cases ha

/-! ### A backend that is unhealthy -/

/-- Two endpoints of a service, and a round of probes that finds the first unreachable. -/
def probing : List Call :=
  let registered : List Call := [.register (.new "users" "127.0.0.1:8001"),
    .register (.new "users" "127.0.0.1:8002")]
  let d : ServiceDiscovery (.listing fun _ => true) := reached .roundRobin registered
  registered ++ d.checkAllServices d.listServices fun _ address => address == "127.0.0.1:8002"

/-- It counts as healthy, and is selected. -/
theorem unhealthy_selected :
    ¬ (reached (B := .listing fun _ => true) .roundRobin probing).Steers probing ∧
    (reached (B := .listing fun _ => true) .roundRobin probing).select "users" 0 = some "127.0.0.1:8001" ∧
    lastReported probing "users" "127.0.0.1:8001" = false ∧
      lastReported probing "users" "127.0.0.1:8002" = true := by
  have hselected : (reached (B := .listing fun _ => true) .roundRobin probing).select "users" 0 =
      some "127.0.0.1:8001" := by decide +kernel
  have hunhealthy : lastReported probing "users" "127.0.0.1:8001" = false := by decide +kernel
  have hhealthy : lastReported probing "users" "127.0.0.1:8002" = true := by decide +kernel
  have hother : ∃ e ∈ (reached (B := .listing fun _ => true) .roundRobin probing).discover "users",
      e.address = "127.0.0.1:8002" := by decide +kernel
  refine ⟨fun h => ?_, hselected, hunhealthy, hhealthy⟩
  have hspared := h.spared "users" [] 0 _ (.inr hselected) hunhealthy _ hother
  rw [hhealthy] at hspared
  cases hspared

end XProtocol.ServiceDiscovery
