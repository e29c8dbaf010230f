import NetfabricBgp.Processes
import NetfabricBgp.StateMachines
import NetfabricBgp.Supplies
import NetfabricBgp.Topologies

/-!
Routers, and one cycle of their work: every process receives, takes the changes of its best
routes, makes an advertisement of them and sends it. Each process comes with the RIB that its
interface refers to.
-/
namespace NetfabricBgp.Routers

open RouterMasks Ribs RibInterfaces Advertisements Channels Sessions Processes Supplies
  StateMachines Topologies

/-- What one cycle of a process meets around it: the outcomes of its lock attempts and the
clock. -/
structure Moment where
  locks : ℕ → LockAttempt
  ribLocks : ℕ → LockAttempt
  timestamp : UInt64

/-- A process and the RIB of its interface. -/
structure HostedProcess where
  process : BgpProcess
  rib : RibId

namespace HostedProcess

/-- `BgpProcess::new`: a new RIB, in which a fresh client is registered. -/
def new (uuids : ℕ → Uuid) (supply : Supply) : Except Panic (HostedProcess × Supply) :=
  let (id, supply) := supply.newV4 uuids
  let (client, supply) := supply.newV4 uuids
  match BgpRibInterface.new BgpRib.new client with
  | .error panic => .error panic
  | .ok (rib, ribInterface) =>
    let (ribId, supply) := supply.newRib rib
    .ok (⟨BgpProcess.new id ribInterface, ribId⟩, supply)

def setConfig (self : HostedProcess) (config : ProcessConfig) : HostedProcess :=
  { self with process := { self.process with config := config } }

def setRouterId (self : HostedProcess) (id : Uuid) : HostedProcess :=
  { self with process :=
    { self.process with ribInterface := self.process.ribInterface.setClientId id } }

def addSession (self : HostedProcess) (session : BgpSession) : HostedProcess :=
  { self with process := { self.process with sessions := self.process.sessions ++ [session] } }

def fromConfig (uuids : ℕ → Uuid) (supply : Supply) (config : ProcessConfig) :
    Except Panic (HostedProcess × Supply) :=
  match new uuids supply with
  | .error panic => .error panic
  | .ok (process, supply) => .ok (process.setConfig config, supply)

/-- The body of the loop in `Router::work`. -/
def cycle (forms : TextForms) (self : HostedProcess) (moment : Moment) (links : Links)
    (ribs : RibId → BgpRib) : Except Panic (Links × (RibId → BgpRib) × HostedProcess) :=
  match self.process.receive forms moment.locks moment.ribLocks links (ribs self.rib) with
  | .error panic => .error panic
  | .ok (links, rib, process) =>
    let process := process.getBestRouteChanges
    let process := process.generateAdvertisement forms moment.timestamp
    let (links, process) := process.send links
    .ok (links, Function.update ribs self.rib rib, { self with process := process })

end HostedProcess

structure Router where
  id : Uuid
  options : RouterOptions
  bgpProcesses : List HostedProcess

/-- The loop of `work` over the processes, whose cycles are numbered. -/
def workProcesses (forms : TextForms) (moments : ℕ → Moment) (links : Links)
    (ribs : RibId → BgpRib) :
    ℕ → List HostedProcess → Except Panic (Links × (RibId → BgpRib) × List HostedProcess)
  | _, [] => .ok (links, ribs, [])
  | n, process :: rest =>
    match process.cycle forms (moments n) links ribs with
    | .error panic => .error panic
    | .ok (links, ribs, process) =>
      match workProcesses forms moments links ribs (n + 1) rest with
      | .error panic => .error panic
      | .ok (links, ribs, rest) => .ok (links, ribs, process :: rest)

namespace Router

def new (id : Uuid) : Router := ⟨id, default, []⟩

def withOptions (self : Router) (options : RouterOptions) : Router :=
  { self with options := options }

def addBgpProcess (self : Router) (process : HostedProcess) : Router :=
  { self with bgpProcesses := self.bgpProcesses ++ [process.setRouterId self.id] }

def work (forms : TextForms) (self : Router) (moments : ℕ → Moment) (links : Links)
    (ribs : RibId → BgpRib) :
    Except Panic (Links × (RibId → BgpRib) × Router × StateTransition Router) :=
  match workProcesses forms moments links ribs 0 self.bgpProcesses with
  | .error panic => .error panic
  | .ok (links, ribs, bgpProcesses) =>
    .ok (links, ribs, { self with bgpProcesses := bgpProcesses }, .Continue)

end Router

section Creation

/-- The first client of a new RIB finds a free mask. -/
theorem ribInterface_new_ok (client : Uuid) :
    ∃ rib, BgpRibInterface.new BgpRib.new client = .ok (rib, ⟨client, [], []⟩) := by
  have hkeys : RouterMaskMap.new.map.keys = ∅ := Finmap.keys_empty
  have hroom : client ∈ RouterMaskMap.new.map ∨ RouterMaskMap.new.map.keys.card < 64 := by
    right
    rw [hkeys, Finset.card_empty]
    omega
  obtain ⟨⟨masks, mask⟩, hget⟩ := RouterMaskMap.get_total RouterMaskMap.wellFormed_new hroom
  refine ⟨⟨masks, ∅⟩, ?_⟩
  simp only [BgpRibInterface.new, BgpRib.registerRouter, BgpRib.new, hget]

/-- A process with the given configuration and no sessions; two identifiers are drawn. -/
theorem fromConfig_ok (uuids : ℕ → Uuid) (supply : Supply) (config : ProcessConfig) :
    ∃ process supply', HostedProcess.fromConfig uuids supply config = .ok (process, supply') ∧
      process.process.config = config ∧ process.process.sessions = [] ∧
      supply'.links = supply.links ∧ supply'.nextChannel = supply.nextChannel ∧
      supply'.drawn = supply.drawn + 2 := by
  obtain ⟨rib, hnew⟩ := ribInterface_new_ok (uuids (supply.drawn + 1))
  have hfrom : HostedProcess.fromConfig uuids supply config =
      .ok (HostedProcess.setConfig ⟨BgpProcess.new (uuids supply.drawn)
          ⟨uuids (supply.drawn + 1), [], []⟩, supply.nextRib⟩ config,
        (Supply.newRib { supply with drawn := supply.drawn + 2 } rib).2) := by
    simp only [HostedProcess.fromConfig, HostedProcess.new, Supply.newV4, hnew, Supply.newRib]
  exact ⟨_, _, hfrom, rfl, rfl, rfl, rfl, rfl⟩

end Creation

end NetfabricBgp.Routers
