import NetfabricBgp.StateMachineHandles
import NetfabricBgp.Routers

/-!
The network manager builds a network of routers from a topology: one router for each vertex,
and for each edge a pair of sessions joined by two new channels. A call of it can return an
error, or panic.
-/
namespace NetfabricBgp.Networks

open Addresses RouterMasks Ribs Advertisements Channels Interfaces Sessions Processes Supplies
  MessageBuses Topologies Routers

inductive RouterError
  | ProcessError (text : String)
deriving DecidableEq

inductive NetworkManagerError
  | RouterNotFound (id : Uuid)
  | RouterAlreadyExists (id : Uuid)
  | RouterError (error : RouterError)
  | StateMachineError (error : StateMachineHandles.StateMachineError)
  | ThreadManagerError (error : ThreadManagerError)
deriving DecidableEq

inductive Failure
  | returned (error : NetworkManagerError)
  | panicked (text : String)
deriving DecidableEq

def notOneProcess : NetworkManagerError :=
  .RouterError (.ProcessError "Router has more or less than one BGP process")

/-- The RIB of the network is made but no router uses it. -/
structure NetworkManager where
  rib : RibId
  routers : Finmap (fun _ : Uuid => Router)
  threadManager : ThreadManager

/-- A session is attached to the first process of a router. -/
def attach (router : Router) (session : BgpSession) : Except NetworkManagerError Router :=
  match router.bgpProcesses with
  | process :: rest => .ok { router with bgpProcesses := process.addSession session :: rest }
  | [] => .error notOneProcess

namespace NetworkManager

def new (threadManager : ThreadManager) (supply : Supply) : NetworkManager × Supply :=
  let (rib, supply) := supply.newRib BgpRib.new
  (⟨rib, ∅, threadManager⟩, supply)

def insertRouter (self : NetworkManager) (router : Router) : Except Failure NetworkManager :=
  if router.id ∈ self.routers then .error (.panicked "Router already exists")
  else
    let router :=
      { router with bgpProcesses := router.bgpProcesses.map (·.setRouterId router.id) }
    .ok { self with routers := self.routers.insert router.id router }

/-- `get_disjoint_mut` refuses to lend one router twice. -/
def getRouterPairMut (self : NetworkManager) (router1Id router2Id : Uuid) :
    Except Failure (Router × Router) :=
  match self.routers.lookup router1Id, self.routers.lookup router2Id with
  | none, _ => .error (.returned (.RouterNotFound router1Id))
  | some _, none => .error (.returned (.RouterNotFound router2Id))
  | some router1, some router2 =>
    if router1Id = router2Id then .error (.panicked "duplicate keys found")
    else .ok (router1, router2)

variable (forms : TextForms) (uuids : ℕ → Uuid)

def getMessageBusChannelPair (self : NetworkManager) (supply : Supply) (linkBufferSize : ℕ) :
    Except Failure (NetworkManager × Supply × ChannelId × ChannelId) :=
  match self.threadManager.getMessageBusChannelPair forms uuids supply linkBufferSize with
  | .error e => .error (.returned (.ThreadManagerError e))
  | .ok (threadManager, supply, tx, rx) =>
    .ok ({ self with threadManager := threadManager }, supply, tx, rx)

def newInterfacePair (self : NetworkManager) (supply : Supply) (ip1 ip2 : IpAddr)
    (linkBufferSize : ℕ) :
    Except Failure (NetworkManager × Supply × Interface × Interface) :=
  let (id1, supply) := supply.newV4 uuids
  let (id2, supply) := supply.newV4 uuids
  match self.getMessageBusChannelPair forms uuids supply linkBufferSize with
  | .error e => .error e
  | .ok (self, supply, tx1, rx1) =>
    match self.getMessageBusChannelPair forms uuids supply linkBufferSize with
    | .error e => .error e
    | .ok (self, supply, tx2, rx2) =>
      let interface1 := (Interface.new id1 ip1).setOutChannel tx1
      let interface2 := ((Interface.new id2 ip2).setInChannel rx1).setOutChannel tx2
      .ok (self, supply, interface1.setInChannel rx2, interface2)

def newBgpSessionPair (self : NetworkManager) (supply : Supply) (config1 config2 : SessionConfig)
    (linkBufferSize : ℕ) :
    Except Failure (NetworkManager × Supply × BgpSession × BgpSession) :=
  match self.newInterfacePair forms uuids supply config1.interfaceIp config2.interfaceIp
      linkBufferSize with
  | .error e => .error e
  | .ok (self, supply, interface1, interface2) =>
    let (id1, supply) := supply.newV4 uuids
    let (id2, supply) := supply.newV4 uuids
    .ok (self, supply, ((BgpSession.new id1).setConfig config1).withInterface interface1,
      ((BgpSession.new id2).setConfig config2).withInterface interface2)

/-- The first loop of `from_topology`: a router for a vertex. -/
def createRouter (state : NetworkManager × Supply) (vertex : Uuid × NetworkTopologyVertex) :
    Except Failure (NetworkManager × Supply) :=
  let (self, supply) := state
  match HostedProcess.fromConfig uuids supply vertex.2.processConfig with
  | .error panic => .error (.panicked panic.message)
  | .ok (process, supply) =>
    let router :=
      ((Router.new vertex.1).withOptions vertex.2.routerOptions).addBgpProcess process
    match self.insertRouter router with
    | .error e => .error e
    | .ok self => .ok (self, supply)

/-- The second loop: two joined sessions for an edge, each attached to its router. -/
def createSessions (state : NetworkManager × Supply) (edge : Uuid × Uuid × NetworkTopologyEdge) :
    Except Failure (NetworkManager × Supply) :=
  let (self, supply) := state
  let (vertex1Id, vertex2Id, edge) := edge
  match self.newBgpSessionPair forms uuids supply edge.sessionConfigs.1 edge.sessionConfigs.2
      edge.linkBufferSize.toNat with
  | .error e => .error e
  | .ok (self, supply, session1, session2) =>
    match self.getRouterPairMut vertex1Id vertex2Id with
    | .error e => .error e
    | .ok (router1, router2) =>
      match attach router1 session1, attach router2 session2 with
      | .error e, _ => .error (.returned e)
      | .ok _, .error e => .error (.returned e)
      | .ok router1, .ok router2 =>
        .ok ({ self with
          routers := (self.routers.insert vertex1Id router1).insert vertex2Id router2 }, supply)

def fromTopology (topology : NetworkTopology) (threadManager : ThreadManager) (supply : Supply) :
    Except Failure (NetworkManager × Supply) :=
  match Runs.run (createRouter uuids) (new threadManager supply) topology.vertices with
  | .error e => .error e
  | .ok state => Runs.run (createSessions forms uuids) state topology.edges

end NetworkManager

/-- A new interface between two channels. -/
def Interface.MadeWith (ip : IpAddr) (inChannel outChannel : ChannelId) (interface : Interface) :
    Prop :=
  ∃ id, interface = { Interface.new id ip with
    inChannel := some inChannel
    outChannel := some outChannel }

/-- A new session with such an interface. -/
def BgpSession.MadeWith (config : SessionConfig) (inChannel outChannel : ChannelId)
    (session : BgpSession) : Prop :=
  session.config = config ∧ ∃ interface, session.interface = some interface ∧
    Interface.MadeWith config.interfaceIp inChannel outChannel interface

section Pairs
variable {forms : TextForms} {uuids : ℕ → Uuid}

/-- The bus knows one more identifier, and both ends of the channel are handed out. -/
theorem getMessageBusChannelPair_ok (network : NetworkManager) (supply : Supply) (bound : ℕ)
    (hunused : network.threadManager.messageBus.Unused (uuids supply.drawn)) :
    ∃ manager supply', network.getMessageBusChannelPair forms uuids supply bound =
        .ok ({ network with threadManager := manager }, supply', supply.nextChannel,
          supply.nextChannel) ∧
      supply'.links = Function.update supply.links supply.nextChannel (Channel.create bound) ∧
      supply'.nextChannel = supply.nextChannel + 1 ∧ supply'.drawn = supply.drawn + 1 ∧
      ∀ id, id ≠ uuids supply.drawn → network.threadManager.messageBus.Unused id →
        manager.messageBus.Unused id := by
  simp only [NetworkManager.getMessageBusChannelPair, ThreadManager.getMessageBusChannelPair,
    Supply.newV4, ThreadManager.getMessageBusChannelPairWithId_of_unused bound hunused]
  refine ⟨_, _, rfl, rfl, rfl, rfl, ?_⟩
  intro id hne hid
  refine ⟨?_, hid.2⟩
  show id ∉ Finmap.insert _ _ _
  rw [Finmap.mem_insert]
  exact not_or.mpr ⟨hne, hid.1⟩

/-- Two interfaces joined crosswise by two new channels. -/
theorem newInterfacePair_ok (network : NetworkManager) (supply : Supply) (ip1 ip2 : IpAddr)
    (bound : ℕ) (hfresh : Fresh uuids network.threadManager.messageBus supply.drawn 4) :
    ∃ manager supply' interface1 interface2,
      network.newInterfacePair forms uuids supply ip1 ip2 bound =
        .ok ({ network with threadManager := manager }, supply', interface1, interface2) ∧
      Interface.MadeWith ip1 (supply.nextChannel + 1) supply.nextChannel interface1 ∧
      Interface.MadeWith ip2 supply.nextChannel (supply.nextChannel + 1) interface2 ∧
      supply'.links = Function.update (Function.update supply.links supply.nextChannel
        (Channel.create bound)) (supply.nextChannel + 1) (Channel.create bound) ∧
      supply'.nextChannel = supply.nextChannel + 2 ∧ supply'.drawn = supply.drawn + 4 ∧
      ∀ id, id ≠ uuids (supply.drawn + 2) → id ≠ uuids (supply.drawn + 3) →
        network.threadManager.messageBus.Unused id → manager.messageBus.Unused id := by
  have hdistinct := hfresh.distinct (supply.drawn + 2) (supply.drawn + 3) (by omega) (by omega)
    (by omega)
  obtain ⟨manager1, supply1, hpair1, hlinks1, hnext1, hdrawn1, hkept1⟩ :=
    @getMessageBusChannelPair_ok forms uuids network { supply with drawn := supply.drawn + 2 } bound
      (hfresh.unused (supply.drawn + 2) (by omega) (by omega))
  have hunused1 := hkept1 _ hdistinct.symm (hfresh.unused (supply.drawn + 3) (by omega) (by omega))
  obtain ⟨manager2, supply2, hpair2, hlinks2, hnext2, hdrawn2, hkept2⟩ :=
    @getMessageBusChannelPair_ok forms uuids { network with threadManager := manager1 } supply1
      bound (by rw [hdrawn1]; exact hunused1)
  simp only [NetworkManager.newInterfacePair, Supply.newV4, hpair1, hpair2, hnext1]
  refine ⟨manager2, _, _, _, rfl, ⟨_, rfl⟩, ⟨_, rfl⟩, ?_, ?_, ?_, ?_⟩
  · rw [hlinks2, hlinks1, hnext1]
  · rw [hnext2, hnext1]
  · rw [hdrawn2, hdrawn1]
  · intro id hne2 hne3 hid
    rw [hdrawn1] at hkept2
    exact hkept2 id hne3 (hkept1 id hne2 hid)

/-- Two sessions joined crosswise by two new channels. -/
theorem newBgpSessionPair_ok (network : NetworkManager) (supply : Supply)
    (config1 config2 : SessionConfig) (bound : ℕ)
    (hfresh : Fresh uuids network.threadManager.messageBus supply.drawn 4) :
    ∃ manager supply' session1 session2,
      network.newBgpSessionPair forms uuids supply config1 config2 bound =
        .ok ({ network with threadManager := manager }, supply', session1, session2) ∧
      BgpSession.MadeWith config1 (supply.nextChannel + 1) supply.nextChannel session1 ∧
      BgpSession.MadeWith config2 supply.nextChannel (supply.nextChannel + 1) session2 ∧
      supply'.links = Function.update (Function.update supply.links supply.nextChannel
        (Channel.create bound)) (supply.nextChannel + 1) (Channel.create bound) ∧
      supply'.nextChannel = supply.nextChannel + 2 ∧ supply'.drawn = supply.drawn + 6 ∧
      ∀ id, id ≠ uuids (supply.drawn + 2) → id ≠ uuids (supply.drawn + 3) →
        network.threadManager.messageBus.Unused id → manager.messageBus.Unused id := by
  obtain ⟨manager, supply', interface1, interface2, hpair, hmade1, hmade2, hlinks, hnext, hdrawn,
    hkept⟩ := @newInterfacePair_ok forms uuids network supply config1.interfaceIp
      config2.interfaceIp bound hfresh
  simp only [NetworkManager.newBgpSessionPair, Supply.newV4, hpair]
  refine ⟨manager, _, _, _, rfl, ⟨rfl, interface1, rfl, hmade1⟩, ⟨rfl, interface2, rfl, hmade2⟩,
    hlinks, hnext, ?_, hkept⟩
  show supply'.drawn + 1 + 1 = _
  rw [hdrawn]

end Pairs

end NetfabricBgp.Networks
