import NetfabricBgp.FilterCombinators
import NetfabricBgp.LiveParsers
import NetfabricBgp.NetRuns
import NetfabricBgp.TopologySpreads

/-!
A network made from a topology, with the session of a live parser attached to one of its routers
and the network's own RIB given to that router. Each direction of an edge is a queue of its own,
and so is the way from the parser. So what a router hears is a merge of what its neighbours have
published and the parser has sent.
-/
namespace NetfabricBgp.Feeds

open Addresses RouterMasks Ribs RibInterfaces Advertisements BoundedQueues Channels Interfaces
  Sessions Processes Supplies MessageBuses Topologies Routers Networks Incidences TopologyWirings
  QuietNetworks LiveParsers ProcessThreads ThreadSteps ThreadCycles Speakers
  TopologyThreads Flows Origins FilterCombinators TopologyOrigins Spreads SpreadRuns TopologySpreads
  QueueNets NetRefinements NetRuns
open JoinedSessions (placeOf place_eq outChannel_injective inChannel_eq parallelEdges)

def unwrapped : Failure → Failure
  | .returned _ => .panicked "called `Result::unwrap()` on an `Err` value"
  | .panicked text => .panicked text

def unwrappedNone : Failure := .panicked "called `Option::unwrap()` on a `None` value"

def addBgpSession {β : Type*} (self : LiveBgpParser β) (bgpSession : BgpSession) :
    LiveBgpParser β :=
  { self with bgpSessions := self.bgpSessions ++ [bgpSession] }

/-- The parser has one end of a new link, and the session with the other end is returned. -/
def getParserWithBgpSession (forms : TextForms) (uuids : ℕ → Uuid)
    (state : NetworkManager × Supply) :
    Except Failure ((NetworkManager × Supply) × LiveBgpParser UInt8 × BgpSession) :=
  match state.1.newBgpSessionPair forms uuids state.2 .default .default 1000 with
  | .error failure => .error (unwrapped failure)
  | .ok (network, supply, session1, session2) =>
    .ok ((network, supply), addBgpSession .new session1, session2)

def setRib (self : HostedProcess) (rib : RibId) : HostedProcess := { self with rib := rib }

/-- What `main` does between `from_topology` and `start`: the session of a new parser gets a filter
and is attached to the first process of a router, which gets the RIB of the network. -/
def feedRouter (forms : TextForms) (uuids : ℕ → Uuid) (state : NetworkManager × Supply) (id : Uuid)
    (inFilter : Interfaces.Filter Advertisement) :
    Except Failure ((NetworkManager × Supply) × LiveBgpParser UInt8) :=
  match getParserWithBgpSession forms uuids state with
  | .error failure => .error failure
  | .ok ((network, supply), parser, session) =>
    match session.interface with
    | none => .error unwrappedNone
    | some interface =>
      let session := session.withInterface (interface.setInFilter inFilter)
      match network.routers.lookup id with
      | none => .error unwrappedNone
      | some router =>
        match router.bgpProcesses with
        | [] => .error unwrappedNone
        | process :: rest =>
          let process := setRib (process.addSession session) network.rib
          let router := { router with bgpProcesses := process :: rest }
          .ok (({ network with routers := network.routers.insert id router }, supply), parser)

/-- The session of a process that a parser feeds. -/
def FedSession (inChannel outChannel : ChannelId) (inFilter : Interfaces.Filter Advertisement)
    (session : BgpSession) : Prop :=
  ∃ made interface, BgpSession.MadeWith .default inChannel outChannel made ∧
    made.interface = some interface ∧
    session = made.withInterface (interface.setInFilter inFilter)

section Feeding
variable {forms : TextForms} {uuids : ℕ → Uuid} {state : NetworkManager × Supply} {id : Uuid}
  {hosted : HostedProcess} {inFilter : Interfaces.Filter Advertisement}

/-- The first process of the router has a new session between two new channels, and the RIB of the
network. No other process changes. -/
theorem feedRouter_ok (hhosted : hostedAt state.1 (id, 0) = some hosted)
    (hfresh : Fresh uuids state.1.threadManager.messageBus state.2.drawn 4) :
    ∃ state' sender session,
      feedRouter forms uuids state id inFilter = .ok (state', addBgpSession .new sender) ∧
      BgpSession.MadeWith .default (state.2.nextChannel + 1) state.2.nextChannel sender ∧
      FedSession state.2.nextChannel (state.2.nextChannel + 1) inFilter session ∧
      (∀ place, hostedAt state'.1 place =
        if place = (id, 0) then some (setRib (hosted.addSession session) state.1.rib)
        else hostedAt state.1 place) ∧
      state'.2.ribs = state.2.ribs ∧ state'.2.nextRib = state.2.nextRib ∧
      state'.2.links = Function.update (Function.update state.2.links state.2.nextChannel
        (Channel.create 1000)) (state.2.nextChannel + 1) (Channel.create 1000) := by
  obtain ⟨network, supply⟩ := state
  obtain ⟨router, hlookup, hprocess⟩ := Option.bind_eq_some_iff.mp hhosted
  obtain ⟨rest, hprocesses⟩ : ∃ rest, router.bgpProcesses = hosted :: rest := by
    cases hlist : router.bgpProcesses with
    | nil =>
      rw [hlist] at hprocess
      cases hprocess
    | cons first rest =>
      rw [hlist] at hprocess
      obtain rfl := Option.some.inj hprocess
      exact ⟨rest, rfl⟩
  obtain ⟨manager, supply', session1, session2, hpair, hsender, hmade, hlinks, -⟩ :=
    @newBgpSessionPair_ok forms uuids network supply .default .default 1000 hfresh
  obtain ⟨-, -, hribs, hnext, -⟩ := newBgpSessionPair_keeps hpair
  obtain ⟨hconfig, interface, hinterface, hwith⟩ := hmade
  let fed := setRib (hosted.addSession (session2.withInterface (interface.setInFilter inFilter)))
    network.rib
  have hfeed : feedRouter forms uuids (network, supply) id inFilter =
      .ok (({ network with
        threadManager := manager
        routers := network.routers.insert id { router with bgpProcesses := fed :: rest } },
          supply'), addBgpSession .new session1) := by
    simp only [feedRouter, getParserWithBgpSession, hpair, hlookup, hprocesses, hinterface, fed]
  refine ⟨_, session1, _, hfeed, hsender, ⟨session2, interface,
    ⟨hconfig, interface, hinterface, hwith⟩, hinterface, rfl⟩, ?_, hribs, hnext, hlinks⟩
  intro place
  rw [hostedAt_insert { network with threadManager := manager }]
  by_cases hid : place.1 = id
  · rw [if_pos hid]
    obtain ⟨_, n⟩ := place
    obtain rfl := hid
    cases n with
    | zero => simp [fed]
    | succ n =>
      rw [if_neg (by simp)]
      show rest[n]? = (network.routers.lookup _).bind _
      rw [hlookup, Option.bind_some, hprocesses]
      rfl
  · rw [if_neg hid, if_neg (fun heq => hid (congrArg Prod.fst heq))]
    rfl

theorem FedSession.port {c : ChannelId} {session : BgpSession}
    (h : FedSession c (c + 1) inFilter session) :
    ∃ interface, session.interface = some interface ∧
      portOf interface = ⟨some c, some (c + 1), inFilter, NoFilter⟩ ∧ Ready interface ∧
      interface.incomingAdvertisements.items = [] ∧
      interface.outgoingAdvertisements.items = [] := by
  obtain ⟨made, interface, ⟨-, own, hown, id, rfl⟩, hinterface, rfl⟩ := h
  obtain rfl := Option.some.inj (hown.symm.trans hinterface)
  refine ⟨_, rfl, rfl, ⟨rfl, ?_, ?_⟩, rfl, rfl⟩
  · show 0 < OUTGOING_ADVERTISEMENTS_CAPACITY
    decide
  · show 0 < OUTGOING_ADVERTISEMENTS_CAPACITY
    decide

end Feeding

/-- The port of a session of a thread. -/
def PortAt {ι : Type*} (settings : ι → Option Setting) (place : ι × ℕ) (port : Port) : Prop :=
  ∃ setting, settings place.1 = some setting ∧ setting.ports[place.2]?.join = some port

/-- No two sessions have the same channel here. -/
def Exclusive {ι : Type*} (channel : Port → Option ChannelId) (settings : ι → Option Setting) :
    Prop :=
  ∀ c place place' port port', PortAt settings place port → PortAt settings place' port' →
    channel port = some c → channel port' = some c → place = place'

section Ports
variable {ι : Type*} {settings settings' : ι → Option Setting}

theorem exists_table {α β : Type*} (R : α → β → Prop) (h : ∀ a b b', R a b → R a b' → b = b') :
    ∃ table : α → Option β, ∀ a b, table a = some b ↔ R a b := by
  have hpoint : ∀ a, ∃ found : Option β, ∀ b, found = some b ↔ R a b := by
    intro a
    by_cases hex : ∃ b, R a b
    · obtain ⟨b, hb⟩ := hex
      refine ⟨some b, fun b' => ⟨?_, fun hb' => congrArg some (h a b b' hb hb')⟩⟩
      intro heq
      obtain rfl := Option.some.inj heq
      exact hb
    · refine ⟨none, fun b => ⟨fun heq => ?_, fun hb => absurd ⟨b, hb⟩ hex⟩⟩
      cases heq
  choose table htable using hpoint
  exact ⟨table, htable⟩

/-- Threads whose sessions have channels of their own are wired. -/
theorem exists_wired (hsource : Exclusive Port.outChannel settings)
    (htarget : Exclusive Port.inChannel settings) (hkeeps : FiltersKeep settings) :
    ∃ wiring, Wired wiring settings := by
  have htable : ∀ channel : Port → Option ChannelId, Exclusive channel settings →
      ∃ table : ChannelId → Option (ι × ℕ), ∀ c place, table c = some place ↔
        ∃ setting port, settings place.1 = some setting ∧
          setting.ports[place.2]?.join = some port ∧ channel port = some c := by
    intro channel hexclusive
    refine exists_table _ ?_
    rintro c place place' ⟨setting, port, hsetting, hport, hc⟩
      ⟨setting', port', hsetting', hport', hc'⟩
    exact hexclusive c place place' port port' ⟨setting, hsetting, hport⟩
      ⟨setting', hsetting', hport'⟩ hc hc'
  obtain ⟨source, hout⟩ := htable Port.outChannel hsource
  obtain ⟨target, hin⟩ := htable Port.inChannel htarget
  refine ⟨⟨source, target, fun i => (settings i).getD ⟨0, .default, 0, 0, []⟩⟩,
    fun c i m => hout c (i, m), fun c i n => hin c (i, n), ?_, hkeeps⟩
  intro i setting hsetting
  show (settings i).getD _ = setting
  rw [hsetting]
  rfl

theorem portAt_of_mem {i : ι} {setting : Setting} {port : Port}
    (hsetting : settings i = some setting) (hport : some port ∈ setting.ports) :
    ∃ n, PortAt settings (i, n) port := by
  obtain ⟨n, hn⟩ := List.mem_iff_getElem?.mp hport
  refine ⟨n, setting, hsetting, ?_⟩
  rw [hn]
  rfl

theorem source_of_portAt {wiring : Wiring ι} (h : Wired wiring settings) {place : ι × ℕ}
    {port : Port} {c : ChannelId} (hport : PortAt settings place port)
    (hout : port.outChannel = some c) : wiring.source c = some place := by
  obtain ⟨setting, hsetting, hat⟩ := hport
  exact (h.source c place.1 place.2).mpr ⟨setting, port, hsetting, hat, hout⟩

theorem target_of_portAt {wiring : Wiring ι} (h : Wired wiring settings) {place : ι × ℕ}
    {port : Port} {c : ChannelId} (hport : PortAt settings place port)
    (hin : port.inChannel = some c) : wiring.target c = some place := by
  obtain ⟨setting, hsetting, hat⟩ := hport
  exact (h.target c place.1 place.2).mpr ⟨setting, port, hsetting, hat, hin⟩

end Ports

section Attaching
variable {state state' : NetworkManager × Supply} {id : Uuid} {hosted : HostedProcess}
  {session : BgpSession} {inFilter : Interfaces.Filter Advertisement} {c : ChannelId} {rib : RibId}

theorem interfaceAt_fed (n : ℕ) :
    (Thread.start (setRib (hosted.addSession session) rib)).interfaceAt n =
      if n = hosted.process.sessions.length then session.interface
      else (Thread.start hosted).interfaceAt n := by
  show (hosted.process.sessions ++ [session])[n]?.bind (·.interface) = _
  by_cases heq : n = hosted.process.sessions.length
  · rw [if_pos heq, heq, List.getElem?_concat_length]
    rfl
  · rw [if_neg heq]
    show _ = hosted.process.sessions[n]?.bind (·.interface)
    by_cases hlt : n < hosted.process.sessions.length
    · rw [List.getElem?_append_left hlt]
    · have hlength : (hosted.process.sessions ++ [session]).length ≤ n := by
        rw [List.length_append, List.length_singleton]
        omega
      rw [List.getElem?_eq_none hlength, List.getElem?_eq_none (Nat.le_of_not_lt hlt)]

theorem portAt_iff {place : Uuid × ℕ} {q : ℕ} {port : Port} :
    PortAt (settings (threadsOf state)) (place, q) port ↔
      ∃ hosted interface, hostedAt state.1 place = some hosted ∧
        (Thread.start hosted).interfaceAt q = some interface ∧ portOf interface = port := by
  constructor
  · rintro ⟨setting, hsetting, hat⟩
    obtain ⟨self, hself, rfl⟩ := Option.map_eq_some_iff.mp hsetting
    obtain ⟨hosted, hhosted, rfl⟩ := thread_threadsOf hself
    rw [portAt_eq] at hat
    obtain ⟨interface, hinterface, hport⟩ := Option.map_eq_some_iff.mp hat
    exact ⟨hosted, interface, hhosted, hinterface, hport⟩
  · rintro ⟨hosted, interface, hhosted, hinterface, rfl⟩
    refine ⟨settingOf (.start hosted), ?_, ?_⟩
    · show ((hostedAt state.1 place).map Thread.start).map settingOf = _
      rw [hhosted]
      rfl
    · rw [portAt_eq, hinterface]
      rfl

/-- The ports of the network are those from before and the one that the parser feeds. -/
theorem portAt_fed (hhosted : hostedAt state.1 (id, 0) = some hosted)
    (hfed : ∀ place, hostedAt state'.1 place =
      if place = (id, 0) then some (setRib (hosted.addSession session) rib)
      else hostedAt state.1 place)
    (hsession : FedSession c (c + 1) inFilter session) (place : (Uuid × ℕ) × ℕ) (port : Port) :
    PortAt (settings (threadsOf state')) place port ↔
      PortAt (settings (threadsOf state)) place port ∨
        place = ((id, 0), hosted.process.sessions.length) ∧
          port = ⟨some c, some (c + 1), inFilter, NoFilter⟩ := by
  obtain ⟨place, q⟩ := place
  obtain ⟨made, hmade, hport, -⟩ := hsession.port
  rw [portAt_iff, portAt_iff, hfed]
  by_cases hplace : place = (id, 0)
  · subst hplace
    rw [if_pos rfl, hhosted]
    constructor
    · rintro ⟨own, interface, hown, hinterface, rfl⟩
      obtain rfl := Option.some.inj hown
      rw [interfaceAt_fed] at hinterface
      by_cases hq : q = hosted.process.sessions.length
      · rw [if_pos hq, hmade] at hinterface
        obtain rfl := Option.some.inj hinterface
        exact Or.inr ⟨by rw [hq], hport⟩
      · rw [if_neg hq] at hinterface
        exact Or.inl ⟨hosted, interface, rfl, hinterface, rfl⟩
    · rintro (⟨own, interface, hown, hinterface, rfl⟩ | ⟨hat, rfl⟩)
      · obtain rfl := Option.some.inj hown
        refine ⟨_, interface, rfl, ?_, rfl⟩
        have hlt : q < hosted.process.sessions.length := lt_length_of_interfaceAt hinterface
        rw [interfaceAt_fed, if_neg (Nat.ne_of_lt hlt)]
        exact hinterface
      · obtain rfl := (Prod.mk.inj hat).2
        refine ⟨_, made, rfl, ?_, hport⟩
        rw [interfaceAt_fed, if_pos rfl]
        exact hmade
  · rw [if_neg hplace]
    constructor
    · exact Or.inl
    · rintro (hold | ⟨hat, -⟩)
      · exact hold
      · exact absurd (Prod.mk.inj hat).1 hplace

/-- The new session has its channels for itself if all others are older. -/
theorem exclusive_fed {channel : Port → Option ChannelId} {new : Port}
    {settings settings' : (Uuid × ℕ) → Option Setting} {newPlace : (Uuid × ℕ) × ℕ}
    (hexclusive : Exclusive channel settings)
    (hports : ∀ place port, PortAt settings' place port ↔
      PortAt settings place port ∨ place = newPlace ∧ port = new)
    (hnew : ∀ place port, PortAt settings place port → channel port ≠ channel new) :
    Exclusive channel settings' := by
  intro c place place' port port' hport hport' hc hc'
  rcases (hports place port).mp hport with hold | ⟨rfl, rfl⟩
  · rcases (hports place' port').mp hport' with hold' | ⟨rfl, rfl⟩
    · exact hexclusive c place place' port port' hold hold' hc hc'
    · exact absurd (hc.trans hc'.symm) (hnew place port hold)
  · rcases (hports place' port').mp hport' with hold' | ⟨rfl, rfl⟩
    · exact absurd (hc'.trans hc.symm) (hnew place' port' hold')
    · rfl

end Attaching

section Edges
variable {uuids : ℕ → Uuid} {start : Supply} {stop : ℕ} {topology : NetworkTopology}
  {state : NetworkManager × Supply} {place place' : (Uuid × ℕ) × ℕ} {port port' : Port}

theorem portFor_of_portAt (h : Built uuids start stop topology.vertices topology.edges state)
    (hport : PortAt (settings (threadsOf state)) place port) :
    place.1.2 = 0 ∧ ∃ incidence,
      (incidences place.1.1 topology.edges)[place.2]? = some incidence ∧
        PortFor start.nextChannel port incidence := by
  obtain ⟨setting, hsetting, hat⟩ := hport
  exact incidence_of_portAt h hsetting hat

/-- The ports at the same end of an edge are the same. -/
theorem place_eq_of_incidences (hloops : ∀ edge ∈ topology.edges, edge.1 ≠ edge.2.1)
    {incidence incidence' : Incidence NetworkTopologyEdge} (hzero : place.1.2 = 0)
    (hincidence : (incidences place.1.1 topology.edges)[place.2]? = some incidence)
    (hzero' : place'.1.2 = 0)
    (hincidence' : (incidences place'.1.1 topology.edges)[place'.2]? = some incidence')
    (hindex : incidence.index = incidence'.index) (hside : incidence.side = incidence'.side) :
    place = place' := by
  obtain ⟨⟨own, n⟩, q⟩ := place
  obtain ⟨⟨own', n'⟩, q'⟩ := place'
  obtain rfl : n = 0 := hzero
  obtain rfl : n' = 0 := hzero'
  obtain ⟨edge, hedge, -⟩ := eq_position hloops hincidence
  have hplace : (own, q) = placeOf topology.edges incidence.index edge incidence.side :=
    place_eq hloops hedge hincidence rfl
  have hplace' : (own', q') = placeOf topology.edges incidence.index edge incidence'.side :=
    place_eq hloops hedge hincidence' hindex.symm
  rw [hside] at hplace
  obtain ⟨rfl, rfl⟩ := Prod.mk.inj (hplace.trans hplace'.symm)
  rfl

theorem exclusive_outChannel (h : Built uuids start stop topology.vertices topology.edges state)
    (hloops : ∀ edge ∈ topology.edges, edge.1 ≠ edge.2.1) :
    Exclusive Port.outChannel (settings (threadsOf state)) := by
  intro c place place' port port' hport hport' hc hc'
  obtain ⟨hzero, incidence, hincidence, hfor⟩ := portFor_of_portAt h hport
  obtain ⟨hzero', incidence', hincidence', hfor'⟩ := portFor_of_portAt h hport'
  rw [hfor.outChannel] at hc
  rw [hfor'.outChannel] at hc'
  obtain ⟨hindex, hside⟩ := outChannel_injective (Option.some.inj (hc.trans hc'.symm))
  exact place_eq_of_incidences hloops hzero hincidence hzero' hincidence' hindex hside

theorem exclusive_inChannel (h : Built uuids start stop topology.vertices topology.edges state)
    (hloops : ∀ edge ∈ topology.edges, edge.1 ≠ edge.2.1) :
    Exclusive Port.inChannel (settings (threadsOf state)) := by
  intro c place place' port port' hport hport' hc hc'
  obtain ⟨hzero, incidence, hincidence, hfor⟩ := portFor_of_portAt h hport
  obtain ⟨hzero', incidence', hincidence', hfor'⟩ := portFor_of_portAt h hport'
  rw [hfor.inChannel] at hc
  rw [hfor'.inChannel] at hc'
  have hsame := Option.some.inj (hc.trans hc'.symm)
  rw [inChannel_eq, inChannel_eq] at hsame
  obtain ⟨hindex, hside⟩ := outChannel_injective hsame
  have hsides : incidence.side = incidence'.side := by
    rw [← Side.other_other incidence.side, ← Side.other_other incidence'.side]
    exact congrArg Side.other hside
  exact place_eq_of_incidences hloops hzero hincidence hzero' hincidence' hindex hsides

/-- The channels of the ports are all in use. -/
theorem channels_lt (h : Built uuids start stop topology.vertices topology.edges state)
    (hloops : ∀ edge ∈ topology.edges, edge.1 ≠ edge.2.1)
    (hport : PortAt (settings (threadsOf state)) place port) :
    ∃ c c', port.inChannel = some c ∧ c < state.2.nextChannel ∧
      port.outChannel = some c' ∧ c' < state.2.nextChannel := by
  obtain ⟨-, incidence, hincidence, hfor⟩ := portFor_of_portAt h hport
  obtain ⟨edge, hedge, -⟩ := eq_position hloops hincidence
  have hlt : incidence.index < topology.edges.length := (List.getElem?_eq_some_iff.mp hedge).1
  have hin : inChannel start.nextChannel incidence <
      start.nextChannel + 2 * topology.edges.length := by
    unfold inChannel
    cases incidence.side <;> simp only <;> omega
  have hout : outChannel start.nextChannel incidence <
      start.nextChannel + 2 * topology.edges.length := by
    unfold outChannel
    cases incidence.side <;> simp only <;> omega
  rw [← h.nextChannel] at hin hout
  exact ⟨_, _, hfor.inChannel, hin, hfor.outChannel, hout⟩

/-- Both ends of an edge have a port. -/
theorem portAt_of_edge (h : Built uuids start stop topology.vertices topology.edges state)
    (htopology : topology.WellFormed) (hloops : ∀ edge ∈ topology.edges, edge.1 ≠ edge.2.1)
    {k : ℕ} {edge : Uuid × Uuid × NetworkTopologyEdge} (hedge : topology.edges[k]? = some edge)
    (side : Side) :
    ∃ port, PortAt (settings (threadsOf state))
        ((endpoint edge side, 0), position (endpoint edge side) topology.edges k) port ∧
      PortFor start.nextChannel port ⟨k, side, edge.2.2⟩ := by
  have hmem := List.mem_of_getElem? hedge
  have hend : endpoint edge side ∈ topology.vertices.map Prod.fst := by
    cases side with
    | first => exact (htopology.ends edge hmem).1
    | second => exact (htopology.ends edge hmem).2
  obtain ⟨setting, port, hsetting, hport, hfor⟩ :=
    exists_portAt h hend (getElem?_position hloops hedge side)
  exact ⟨port, ⟨setting, hsetting, hport⟩, hfor⟩

/-- What a port receives is written at the other end of the edge. -/
theorem portAt_opposite (h : Built uuids start stop topology.vertices topology.edges state)
    (htopology : topology.WellFormed) (hloops : ∀ edge ∈ topology.edges, edge.1 ≠ edge.2.1)
    (hport : PortAt (settings (threadsOf state)) place port) :
    ∃ place' port', PortAt (settings (threadsOf state)) place' port' ∧
      port'.outChannel = port.inChannel ∧ Adjacent topology place'.1.1 place.1.1 := by
  obtain ⟨-, incidence, hincidence, hfor⟩ := portFor_of_portAt h hport
  obtain ⟨edge, hedge, hend, hlabel, -⟩ := eq_position hloops hincidence
  obtain ⟨port', hport', hfor'⟩ := portAt_of_edge h htopology hloops hedge incidence.side.other
  refine ⟨_, port', hport', ?_, ⟨edge, List.mem_of_getElem? hedge, incidence.side.other, rfl, ?_⟩⟩
  · rw [hfor'.outChannel, hfor.inChannel, inChannel_eq]
    rfl
  · rw [Side.other_other]
    exact hend

end Edges

/-- The RIB of the network is that of no process. -/
def Apart (state : NetworkManager × Supply) : Prop :=
  state.1.rib < state.2.nextRib ∧
    ∀ place hosted, hostedAt state.1 place = some hosted → hosted.rib ≠ state.1.rib

section Homes
variable {forms : TextForms} {uuids : ℕ → Uuid} {state state' : NetworkManager × Supply}
  {id : Uuid} {hosted : HostedProcess} {session : BgpSession}

theorem Apart.createRouter {vertex : Uuid × NetworkTopologyVertex} (h : Apart state)
    (hcreate : NetworkManager.createRouter uuids state vertex = .ok state') : Apart state' := by
  obtain ⟨hosted, hfrom, hrib, hcases⟩ := hostedAt_createRouter hcreate
  obtain ⟨hown, -, hnext, -⟩ := fromConfig_home hfrom
  obtain ⟨hlt, hapart⟩ := h
  refine ⟨?_, ?_⟩
  · rw [hrib, hnext]
    exact Nat.lt_succ_of_lt hlt
  · intro place other hother
    rw [hrib]
    rcases hcases place other hother with ⟨-, rfl⟩ | ⟨-, hold⟩
    · show hosted.rib ≠ state.1.rib
      rw [hown]
      exact Nat.ne_of_gt hlt
    · exact hapart place other hold

theorem Apart.createSessions {edge : Uuid × Uuid × NetworkTopologyEdge} (h : Apart state)
    (hcreate : NetworkManager.createSessions forms uuids state edge = .ok state') :
    Apart state' := by
  obtain ⟨hrib, -, hnext, hextends⟩ := hostedAt_createSessions hcreate
  refine ⟨?_, ?_⟩
  · rw [hrib, hnext]
    exact h.1
  · intro place hosted' hhosted'
    have hplace := hextends place
    rw [hhosted'] at hplace
    generalize hbefore : hostedAt state.1 place = before at hplace
    cases hplace with
    | some hmore =>
      obtain ⟨more, -, rfl⟩ := hmore
      have hold := h.2 place _ hbefore
      rw [hrib]
      exact hold

theorem apart_fromTopology {topology : NetworkTopology} {threadManager : ThreadManager}
    {supply : Supply}
    (h : NetworkManager.fromTopology forms uuids topology threadManager supply = .ok state) :
    Apart state := by
  have hnew : Apart (NetworkManager.new threadManager supply) := by
    refine ⟨Nat.lt_succ_self _, ?_⟩
    intro place hosted hhosted
    rw [hostedAt, show (NetworkManager.new threadManager supply).1.routers = ∅ from rfl,
      Finmap.lookup_empty] at hhosted
    cases hhosted
  unfold NetworkManager.fromTopology at h
  rcases hvertices : Runs.run (NetworkManager.createRouter uuids)
    (NetworkManager.new threadManager supply) topology.vertices with e | routers
  · simp [hvertices] at h
  · simp only [hvertices] at h
    have hrouters := Runs.run_invariant Apart (fun _ _ _ => Apart.createRouter) hnew hvertices
    exact Runs.run_invariant Apart (fun _ _ _ => Apart.createSessions) hrouters h

/-- The router with the network's RIB has it for itself. -/
theorem housed_fed (h : Housed state) (hapart : Apart state)
    (hhosted : hostedAt state.1 (id, 0) = some hosted)
    (hfed : ∀ place, hostedAt state'.1 place =
      if place = (id, 0) then some (setRib (hosted.addSession session) state.1.rib)
      else hostedAt state.1 place)
    (hribs : state'.2.ribs = state.2.ribs) (hnext : state'.2.nextRib = state.2.nextRib) :
    Housed state' := by
  refine ⟨?_, ?_, ?_⟩
  · intro place other hother
    rw [hnext]
    rw [hfed] at hother
    by_cases hplace : place = (id, 0)
    · rw [if_pos hplace] at hother
      obtain rfl := Option.some.inj hother
      subst hplace
      exact ⟨hapart.1, (h.below _ hosted hhosted).2⟩
    · rw [if_neg hplace] at hother
      exact h.below place other hother
  · intro place place' other other' hother hother' hsame
    rw [hfed] at hother hother'
    by_cases hplace : place = (id, 0)
    · by_cases hplace' : place' = (id, 0)
      · exact hplace.trans hplace'.symm
      · rw [if_pos hplace] at hother
        rw [if_neg hplace'] at hother'
        obtain rfl := Option.some.inj hother
        exact absurd hsame.symm (hapart.2 place' other' hother')
    · rw [if_neg hplace] at hother
      by_cases hplace' : place' = (id, 0)
      · rw [if_pos hplace'] at hother'
        obtain rfl := Option.some.inj hother'
        exact absurd hsame (hapart.2 place other hother)
      · rw [if_neg hplace'] at hother'
        exact h.own place place' other other' hother hother' hsame
  · intro rib
    rw [hribs]
    exact h.unwritten rib

/-- Nothing is pending in the process, and its interfaces can send. -/
def Prepared (hosted : HostedProcess) : Prop :=
  QuietProcess hosted.process ∧
    ∀ n interface, (Thread.start hosted).interfaceAt n = some interface → Ready interface

theorem prepared_of_pristine (h : Pristine hosted.process) : Prepared hosted := by
  refine ⟨h.quiet, ?_⟩
  intro n interface hat
  obtain ⟨found, hfound, hinterface⟩ := Option.bind_eq_some_iff.mp hat
  exact ready_newSession (h.sessions found (List.mem_of_getElem? hfound)) hinterface

theorem prepared_fed {c : ChannelId} {inFilter : Interfaces.Filter Advertisement} {rib : RibId}
    (h : Prepared hosted) (hsession : FedSession c (c + 1) inFilter session) :
    Prepared (setRib (hosted.addSession session) rib) := by
  obtain ⟨made, hmade, -, hready, hin, hout⟩ := hsession.port
  obtain ⟨hquiet, hinterfaces⟩ := h
  refine ⟨⟨?_, hquiet.advertisement, hquiet.bestrouteUpdates, hquiet.reported⟩, ?_⟩
  · intro other hother
    rcases List.mem_append.mp hother with hold | hnew
    · exact hquiet.sessions other hold
    · obtain rfl := List.mem_singleton.mp hnew
      intro interface hinterface
      obtain rfl := Option.some.inj (hmade.symm.trans hinterface)
      exact ⟨hin, hout⟩
  · intro n interface hat
    rw [interfaceAt_fed] at hat
    by_cases hn : n = hosted.process.sessions.length
    · rw [if_pos hn, hmade] at hat
      obtain rfl := Option.some.inj hat
      exact hready
    · rw [if_neg hn] at hat
      exact hinterfaces n interface hat

theorem initial_of_housed {wiring : Wiring (Uuid × ℕ)} (h : Housed state)
    (hprepared : ∀ place hosted, hostedAt state.1 place = some hosted → Prepared hosted)
    (hempty : ∀ c place, wiring.target c = some place → (state.2.links c).queue.items = []) :
    Initial wiring (threadsOf state) := by
  refine ⟨silent_of_housed h ?_, ?_, fun c i n => hempty c (i, n)⟩
  · intro place self hself
    obtain ⟨hosted, hhosted, rfl⟩ := thread_threadsOf hself
    obtain ⟨hquiet, hready⟩ := hprepared place hosted hhosted
    exact tidy_start hquiet hready
  · intro place self hself
    obtain ⟨hosted, hhosted, rfl⟩ := thread_threadsOf hself
    exact ⟨hosted, (hprepared place hosted hhosted).1, rfl⟩

end Homes

/-- Where the channels lead: along the edges, in either direction, and from the parser to its
router. -/
structure Joined (topology : NetworkTopology) (id : Uuid) (sender : BgpSession)
    (wiring : Wiring (Uuid × ℕ)) : Prop where
  edges : ∀ edge ∈ topology.edges, ∀ side, ∃ c m n,
    wiring.source c = some ((endpoint edge side, 0), m) ∧
      wiring.target c = some ((endpoint edge side.other, 0), n)
  parser : ∃ c n, sender.outChannel = some c ∧ wiring.target c = some ((id, 0), n) ∧
    wiring.source c = none
  only : ∀ c place n, wiring.target c = some (place, n) → sender.outChannel ≠ some c →
    ∃ place' m, wiring.source c = some (place', m) ∧ Adjacent topology place'.1 place.1

/-- The network with the session of a parser, before anything has happened. -/
structure Fed (topology : NetworkTopology) (id : Uuid) (inFilter : Interfaces.Filter Advertisement)
    (state : NetworkManager × Supply) (sender : BgpSession) (wiring : Wiring (Uuid × ℕ)) :
    Prop where
  housed : Housed state
  wired : NetRefinements.Wired wiring (settings (threadsOf state))
  initial : Initial wiring (threadsOf state)
  joined : Joined topology id sender wiring
  made : ∃ back c, BgpSession.MadeWith .default back c sender
  filtered : ∀ c place port, sender.outChannel = some c →
    PortAt (settings (threadsOf state)) place port → port.inChannel = some c →
      port.inFilter = inFilter

section Deploying
variable {forms : TextForms} {uuids : ℕ → Uuid} {start : Supply} {stop : ℕ}
  {topology : NetworkTopology} {state state' : NetworkManager × Supply} {id : Uuid}
  {hosted : HostedProcess} {session sender : BgpSession}
  {inFilter : Interfaces.Filter Advertisement}

theorem outChannel_of_made {config : SessionConfig} {inChannel outChannel : ChannelId}
    (h : BgpSession.MadeWith config inChannel outChannel sender) :
    sender.outChannel = some outChannel := by
  obtain ⟨-, interface, hinterface, made, rfl⟩ := h
  unfold BgpSession.outChannel
  rw [hinterface]
  rfl

/-- The network with the session of the parser is wired along the edges. -/
theorem exists_joined (h : Built uuids start stop topology.vertices topology.edges state)
    (htopology : topology.WellFormed) (hloops : ∀ edge ∈ topology.edges, edge.1 ≠ edge.2.1)
    (hkeeps : ∀ ad, (inFilter ad).2 = ad)
    (hports : ∀ place port, PortAt (settings (threadsOf state')) place port ↔
      PortAt (settings (threadsOf state)) place port ∨
        place = ((id, 0), hosted.process.sessions.length) ∧
          port = ⟨some state.2.nextChannel, some (state.2.nextChannel + 1), inFilter, NoFilter⟩)
    (hsender : BgpSession.MadeWith .default (state.2.nextChannel + 1) state.2.nextChannel sender) :
    ∃ wiring, NetRefinements.Wired wiring (settings (threadsOf state')) ∧
      Joined topology id sender wiring ∧
      ∀ c place, wiring.target c = some place → c = state.2.nextChannel ∨
        ∃ port, PortAt (settings (threadsOf state)) place port ∧ port.inChannel = some c := by
  have hsource : Exclusive Port.outChannel (settings (threadsOf state')) := by
    refine exclusive_fed (exclusive_outChannel h hloops) hports ?_
    intro place port hport
    obtain ⟨-, c, -, -, hout, hlt⟩ := channels_lt h hloops hport
    rw [hout]
    intro heq
    obtain rfl := Option.some.inj heq
    exact Nat.not_succ_lt_self hlt
  have htarget : Exclusive Port.inChannel (settings (threadsOf state')) := by
    refine exclusive_fed (exclusive_inChannel h hloops) hports ?_
    intro place port hport
    obtain ⟨c, -, hin, hlt, -⟩ := channels_lt h hloops hport
    rw [hin]
    intro heq
    obtain rfl := Option.some.inj heq
    exact Nat.lt_irrefl _ hlt
  have hfilters : FiltersKeep (settings (threadsOf state')) := by
    intro place setting port hsetting hmem ad
    obtain ⟨q, hport⟩ := portAt_of_mem hsetting hmem
    rcases (hports _ port).mp hport with hold | ⟨-, rfl⟩
    · obtain ⟨-, incidence, -, hfor⟩ := portFor_of_portAt h hold
      obtain ⟨hin, hout⟩ := hfor.passes ad
      exact ⟨congrArg Prod.snd hin, congrArg Prod.snd hout⟩
    · exact ⟨hkeeps ad, rfl⟩
  obtain ⟨wiring, hwired⟩ := exists_wired hsource htarget hfilters
  have hkept : ∀ place port, PortAt (settings (threadsOf state)) place port →
      PortAt (settings (threadsOf state')) place port :=
    fun place port hport => (hports place port).mpr (Or.inl hport)
  have htargets : ∀ c place, wiring.target c = some place → c = state.2.nextChannel ∨
      ∃ port, PortAt (settings (threadsOf state)) place port ∧ port.inChannel = some c := by
    intro c place hc
    obtain ⟨setting, port, hsetting, hat, hin⟩ := (hwired.target c place.1 place.2).mp hc
    rcases (hports place port).mp ⟨setting, hsetting, hat⟩ with hold | ⟨-, rfl⟩
    · exact Or.inr ⟨port, hold, hin⟩
    · exact Or.inl (Option.some.inj hin).symm
  have hout := outChannel_of_made hsender
  refine ⟨wiring, hwired, ⟨?_, ?_, ?_⟩, htargets⟩
  · intro edge hmem side
    obtain ⟨k, hedge⟩ := List.mem_iff_getElem?.mp hmem
    obtain ⟨port, hport, hfor⟩ := portAt_of_edge h htopology hloops hedge side
    obtain ⟨port', hport', hfor'⟩ := portAt_of_edge h htopology hloops hedge side.other
    have hback : port'.inChannel = port.outChannel := by
      rw [hfor'.inChannel, hfor.outChannel, inChannel_eq, Side.other_other]
    exact ⟨_, _, _, source_of_portAt hwired (hkept _ _ hport) hfor.outChannel,
      target_of_portAt hwired (hkept _ _ hport') (hback.trans hfor.outChannel)⟩
  · refine ⟨state.2.nextChannel, hosted.process.sessions.length, hout, ?_, ?_⟩
    · exact target_of_portAt hwired ((hports _ _).mpr (Or.inr ⟨rfl, rfl⟩)) rfl
    · by_contra hsome
      obtain ⟨place, hplace⟩ := Option.ne_none_iff_exists'.mp hsome
      obtain ⟨setting, port, hsetting, hat, hc⟩ :=
        (hwired.source state.2.nextChannel place.1 place.2).mp hplace
      rcases (hports place port).mp ⟨setting, hsetting, hat⟩ with hold | ⟨-, rfl⟩
      · obtain ⟨-, c, -, -, hown, hlt⟩ := channels_lt h hloops hold
        obtain rfl := Option.some.inj (hc.symm.trans hown)
        exact absurd hlt (Nat.lt_irrefl _)
      · have hsame : state.2.nextChannel + 1 = state.2.nextChannel := Option.some.inj hc
        omega
  · intro c place n hc hne
    rcases htargets c _ hc with rfl | ⟨port, hport, hin⟩
    · exact absurd hout hne
    · obtain ⟨place', port', hport', hsame, hadjacent⟩ :=
        portAt_opposite h htopology hloops hport
      exact ⟨place'.1, place'.2, source_of_portAt hwired (hkept _ _ hport') (hsame.trans hin),
        hadjacent⟩

theorem exists_hosted (h : Built uuids start stop topology.vertices topology.edges state)
    (hid : id ∈ topology.vertices.map Prod.fst) :
    ∃ hosted, hostedAt state.1 (id, 0) = some hosted := by
  obtain ⟨⟨id, vertex⟩, hmem, rfl⟩ := List.mem_map.mp hid
  obtain ⟨router, hlookup, -, -, process, hprocesses, -⟩ := h.routers _ _ hmem
  refine ⟨process, ?_⟩
  unfold hostedAt
  rw [hlookup, Option.bind_some, hprocesses]
  rfl

theorem empty_of_portAt (h : Built uuids start stop topology.vertices topology.edges state)
    (hloops : ∀ edge ∈ topology.edges, edge.1 ≠ edge.2.1) {place : (Uuid × ℕ) × ℕ} {port : Port}
    {c : ChannelId} (hport : PortAt (settings (threadsOf state)) place port)
    (hin : port.inChannel = some c) : (state.2.links c).queue.items = [] := by
  obtain ⟨setting, hsetting, hat⟩ := hport
  obtain ⟨found, hfound, rfl⟩ := Option.bind_eq_some_iff.mp hat
  exact (empty_of_reads h hloops ⟨setting, port, hsetting, List.mem_of_getElem? hfound, hin⟩).2

/-- The parser's session can be attached to any router of a topology without loops. -/
theorem exists_fed (threadManager : ThreadManager) {supply : Supply}
    (htopology : topology.WellFormed) (hloops : ∀ edge ∈ topology.edges, edge.1 ≠ edge.2.1)
    (hunwritten : ∀ rib, Unwritten (supply.ribs rib))
    (hfresh : Fresh uuids threadManager.messageBus supply.drawn
      (2 * topology.vertices.length + 6 * topology.edges.length + 4))
    (hid : id ∈ topology.vertices.map Prod.fst) (hkeeps : ∀ ad, (inFilter ad).2 = ad) :
    ∃ made state sender wiring,
      NetworkManager.fromTopology forms uuids topology threadManager supply = .ok made ∧
      feedRouter forms uuids made id inFilter = .ok (state, addBgpSession .new sender) ∧
      Fed topology id inFilter state sender wiring := by
  obtain ⟨made, hfrom, hbuilt⟩ := @built_before forms uuids _ _ _ _ htopology hloops
    (Nat.le_add_right _ 4) hfresh
  obtain ⟨hosted, hhosted⟩ := exists_hosted hbuilt hid
  obtain ⟨state, sender, session, hfeed, hsender, hsession, hfed, hribs, hnext, hlinks⟩ :=
    @feedRouter_ok forms uuids made id hosted inFilter hhosted
      (fresh_rest hfresh (Nat.le_refl _) hbuilt)
  have hports := portAt_fed hhosted hfed hsession
  obtain ⟨wiring, hwired, hjoined, htargets⟩ := exists_joined hbuilt htopology hloops hkeeps
    hports hsender
  have hhoused : Housed state := housed_fed (housed_fromTopology hunwritten hfrom)
    (apart_fromTopology hfrom) hhosted hfed hribs hnext
  have hprepared : ∀ place own, hostedAt state.1 place = some own → Prepared own := by
    have hpristine := allPristine_fromTopology hfrom
    intro place own hown
    rw [hfed] at hown
    by_cases hplace : place = (id, 0)
    · rw [if_pos hplace] at hown
      obtain rfl := Option.some.inj hown
      exact prepared_fed (prepared_of_pristine (hpristine _ hosted hhosted)) hsession
    · rw [if_neg hplace] at hown
      exact prepared_of_pristine (hpristine place own hown)
  have hinitial : Initial wiring (threadsOf state) := by
    refine initial_of_housed hhoused hprepared ?_
    intro c place hc
    rw [hlinks]
    rcases htargets c place hc with rfl | ⟨port, hport, hin⟩
    · rw [Function.update_of_ne (Nat.ne_of_lt (Nat.lt_succ_self _)), Function.update_self]
      rfl
    · obtain ⟨own, -, hown, hlt, -⟩ := channels_lt hbuilt hloops hport
      obtain rfl := Option.some.inj (hin.symm.trans hown)
      rw [Function.update_of_ne (Nat.ne_of_lt (Nat.lt_succ_of_lt hlt)),
        Function.update_of_ne (Nat.ne_of_lt hlt)]
      exact empty_of_portAt hbuilt hloops hport hin
  refine ⟨made, state, sender, wiring, hfrom, hfeed, hhoused, hwired, hinitial, hjoined,
    ⟨_, _, hsender⟩, ?_⟩
  intro c place port hc hport hin
  obtain rfl := Option.some.inj ((outChannel_of_made hsender).symm.trans hc)
  rcases (hports place port).mp hport with hold | ⟨-, rfl⟩
  · obtain ⟨own, -, hown, hlt, -⟩ := channels_lt hbuilt hloops hold
    obtain rfl := Option.some.inj (hin.symm.trans hown)
    exact absurd hlt (Nat.lt_irrefl _)
  · rfl

end Deploying

/-- In a network made from a topology, with a parser at one router behind a filter that rewrites
nothing, whatever the order of the steps and of the messages of the parser: what a router has
applied, skipped or still to process is a merge of what its neighbours have published for it and the
parser has sent, each in its order and nothing twice. Over a channel on which nothing was lost,
everything has come that is not on its way. -/
theorem merged_fromTopology (forms : TextForms) (uuids : ℕ → Uuid)
    (ops : List NetworkTopology.Op) (threadManager : ThreadManager) (supply : Supply)
    (hunwritten : ∀ rib, Unwritten (supply.ribs rib))
    (hloops : ∀ edge ∈ (NetworkTopology.build ops).edges, edge.1 ≠ edge.2.1)
    (hfresh : Fresh uuids threadManager.messageBus supply.drawn
      (2 * (NetworkTopology.build ops).vertices.length +
        6 * (NetworkTopology.build ops).edges.length + 4)) (id : Uuid)
    (hid : id ∈ (NetworkTopology.build ops).vertices.map Prod.fst)
    (inFilter : Interfaces.Filter Advertisement) (hkeeps : ∀ ad, (inFilter ad).2 = ad) :
    ∃ made state parser sender wiring,
      NetworkManager.fromTopology forms uuids (NetworkTopology.build ops) threadManager supply =
        .ok made ∧
      feedRouter forms uuids made id inFilter = .ok (state, parser) ∧
      parser.bgpSessions = [sender] ∧ Joined (NetworkTopology.build ops) id sender wiring ∧
      ∀ events reached history, run forms (threadsOf state) events = .ok (reached, history) →
        (∀ entry ∈ history, Sealed wiring entry) →
        ∀ place self, reached.thread place = some self →
          ∃ log, Merged forms wiring reached history place self log ∧
            ∀ c n, wiring.target c = some (place, n) →
              Lossless (settings (threadsOf state)) history c →
              cameOver c log ++ carried wiring reached c = offeredTo forms wiring c history := by
  obtain ⟨made, state, sender, wiring, hfrom, hfeed, hfed⟩ := @exists_fed forms uuids _ id inFilter
    threadManager supply (NetworkTopology.wellFormed_build ops) hloops hunwritten hfresh hid hkeeps
  refine ⟨made, state, _, sender, wiring, hfrom, hfeed, rfl, hfed.joined, ?_⟩
  intro events reached history hrun hsealed place self hself
  exact merged_of_initial hfed.initial hfed.wired hrun hsealed hself

/-- All channels but one are written inside the network. -/
def openAt (c : ChannelId) : Wiring (Uuid × ℕ) where
  source := fun other => if other = c then none else some ((0, 0), 0)
  target := fun _ => none
  voice := fun _ => ⟨0, .default, 0, 0, []⟩

theorem sealed_of_openAt {c : ChannelId} {wiring : Wiring (Uuid × ℕ)}
    (hopen : wiring.source c = none) {entry : Option (Uuid × ℕ) × Effect}
    (h : Sealed (openAt c) entry) : Sealed wiring entry := by
  obtain ⟨place, effect⟩ := entry
  cases place with
  | some place => exact trivial
  | none =>
    cases effect with
    | put other message =>
      cases message with
      | foreign => exact trivial
      | advertisement ad =>
        by_cases hother : other = c
        · subst hother
          exact hopen
        · have hsome : (if other = c then none else some (((0 : Uuid), 0), 0)) = none := h
          rw [if_neg hother] at hsome
          cases hsome
    | _ => exact trivial

/-- The parser sends an advertisement of a host that its filter accepts, and the router has a
cycle. -/
def fedCycle : List (Event (Uuid × ℕ)) :=
  .arrive 4 (.advertisement (hostAd "rrc15.ripe.net" 65002)) ::
    List.replicate 12 (.act (1, 0) ⟨.acquired, 0⟩)

set_option maxRecDepth 10000 in
theorem exists_fedCycle :
    ∃ made state parser sender reached history,
      NetworkManager.fromTopology .sample (fun n => BitVec.ofNat 128 n)
        (NetworkTopology.build parallelEdges) .new .initial = .ok made ∧
      feedRouter .sample (fun n => BitVec.ofNat 128 n) made 1 ripeHosts = .ok (state, parser) ∧
      parser.bgpSessions = [sender] ∧ sender.outChannel = some 4 ∧
      run .sample (threadsOf state) fedCycle = .ok (reached, history) ∧
      (∀ entry ∈ history, Sealed (openAt 4) entry) ∧ (reached.thread (1, 0)).isSome = true ∧
      handledBy (1, 0) history = [hostAd "rrc15.ripe.net" 65002] :=
  ⟨_, _, _, _, _, _, rfl, rfl, rfl, rfl, rfl, by decide, rfl, rfl⟩

theorem merged_fromTopology_parallel :
    ∃ made state parser reached history self log wiring,
      NetworkManager.fromTopology .sample (fun n => BitVec.ofNat 128 n)
        (NetworkTopology.build parallelEdges) .new .initial = .ok made ∧
      feedRouter .sample (fun n => BitVec.ofNat 128 n) made 1 ripeHosts = .ok (state, parser) ∧
      run .sample (threadsOf state) fedCycle = .ok (reached, history) ∧
      handledBy (1, 0) history = [hostAd "rrc15.ripe.net" 65002] ∧
      Merged .sample wiring reached history (1, 0) self log := by
  have hcounts : 2 * (NetworkTopology.build parallelEdges).vertices.length +
      6 * (NetworkTopology.build parallelEdges).edges.length + 4 = 20 := by decide
  obtain ⟨made, state, parser, sender, reached, history, hmade, hfed, hparser, hout, hrun, hopen,
    hsome, hhandled⟩ := exists_fedCycle
  obtain ⟨made', state', parser', sender', wiring, hmade', hfed', hparser', hjoined, hmerged⟩ :=
    merged_fromTopology .sample (fun n => BitVec.ofNat 128 n) parallelEdges .new .initial
      (fun _ => unwritten_new) (by decide) (by rw [hcounts]; exact fresh_ofNat (by decide)) 1
      (by decide) ripeHosts ripeHosts_keeps
  obtain rfl := Except.ok.inj (hmade.symm.trans hmade')
  obtain ⟨rfl, rfl⟩ := Prod.mk.inj (Except.ok.inj (hfed.symm.trans hfed'))
  obtain rfl := (List.cons.inj (hparser.symm.trans hparser')).1
  obtain ⟨c, n, hc, -, hnone⟩ := hjoined.parser
  obtain rfl := Option.some.inj (hout.symm.trans hc)
  obtain ⟨self, hself⟩ := Option.isSome_iff_exists.mp hsome
  obtain ⟨log, hlog, -⟩ := hmerged _ reached history hrun
    (fun entry hentry => sealed_of_openAt hnone (hopen entry hentry)) (1, 0) self hself
  exact ⟨made, state, parser, reached, history, self, log, wiring, hmade, hfed, hrun, hhandled,
    hlog⟩

end NetfabricBgp.Feeds
