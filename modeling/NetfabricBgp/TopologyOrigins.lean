import NetfabricBgp.Origins
import NetfabricBgp.TopologyThreads

/-!
Origins in a network that is made from a topology. Its threads start with nothing pending and
with filters that change nothing, and one feeds another only along an edge. So a router holds a
route only if the edges of the topology lead to it from a router where the route's prefix and
next hop were announced from outside.
-/
namespace NetfabricBgp.TopologyOrigins

open Addresses Routes RouterMasks Ribs RibInvariants RibInterfaces Advertisements KeyedLog
  BoundedQueues Channels Interfaces Sessions Processes Supplies MessageBuses Topologies Routers
  Networks Incidences TopologyWirings QuietNetworks JoinedSessions ProcessThreads ThreadSteps
  ThreadHistories ThreadCycles TopologyThreads Flows Origins

/-- Nothing is pending in the process, and its sessions are new. -/
structure Pristine (process : BgpProcess) : Prop where
  quiet : QuietProcess process
  sessions : ∀ session ∈ process.sessions, NewSession session

/-- All processes of the network are pristine. -/
def AllPristine (state : NetworkManager × Supply) : Prop :=
  ∀ place hosted, hostedAt state.1 place = some hosted → Pristine hosted.process

section Making
variable {forms : TextForms} {uuids : ℕ → Uuid} {state state' : NetworkManager × Supply}

theorem pristine_bare {process : BgpProcess} (h : Bare process) : Pristine process := by
  obtain ⟨hquiet, hnone⟩ := h
  refine ⟨hquiet, ?_⟩
  intro session hsession
  rw [hnone] at hsession
  exact absurd hsession List.not_mem_nil

/-- The interface of a new session is a new one between two channels. -/
theorem interface_of_newSession {session : BgpSession} {interface : Interface}
    (h : NewSession session) (hinterface : session.interface = some interface) :
    ∃ ip inChannel outChannel, Interface.MadeWith ip inChannel outChannel interface := by
  obtain ⟨config, inChannel, outChannel, -, made, hmade, hwith⟩ := h
  obtain rfl := Option.some.inj (hmade.symm.trans hinterface)
  exact ⟨_, _, _, hwith⟩

theorem quiet_newSession {session : BgpSession} (h : NewSession session) :
    QuietSession session := by
  intro interface hinterface
  obtain ⟨ip, inChannel, outChannel, id, rfl⟩ := interface_of_newSession h hinterface
  exact ⟨rfl, rfl⟩

theorem filters_newSession {session : BgpSession} {interface : Interface}
    (h : NewSession session) (hinterface : session.interface = some interface)
    (ad : Advertisement) :
    interface.inFilter ad = (true, ad) ∧ interface.outFilter ad = (true, ad) := by
  obtain ⟨ip, inChannel, outChannel, id, rfl⟩ := interface_of_newSession h hinterface
  exact ⟨rfl, rfl⟩

theorem Pristine.extend {hosted hosted' : HostedProcess} (h : Pristine hosted.process)
    (hextends : Extends hosted hosted') : Pristine hosted'.process := by
  obtain ⟨more, hmore, rfl⟩ := hextends
  refine ⟨⟨?_, h.quiet.advertisement, h.quiet.bestrouteUpdates, h.quiet.reported⟩, ?_⟩
  · intro session hsession
    rcases List.mem_append.mp hsession with hold | hnew
    · exact h.quiet.sessions session hold
    · exact quiet_newSession (hmore session hnew)
  · intro session hsession
    rcases List.mem_append.mp hsession with hold | hnew
    · exact h.sessions session hold
    · exact hmore session hnew

theorem AllPristine.createRouter {vertex : Uuid × NetworkTopologyVertex} (h : AllPristine state)
    (hcreate : NetworkManager.createRouter uuids state vertex = .ok state') :
    AllPristine state' := by
  obtain ⟨hosted, hfrom, -, hcases⟩ := hostedAt_createRouter hcreate
  obtain ⟨-, hbare, -⟩ := fromConfig_home hfrom
  have hpristine := pristine_bare hbare
  intro place other hother
  rcases hcases place other hother with ⟨-, rfl⟩ | ⟨-, hold⟩
  · exact ⟨⟨hpristine.quiet.sessions, hpristine.quiet.advertisement,
      hpristine.quiet.bestrouteUpdates, hpristine.quiet.reported⟩, hpristine.sessions⟩
  · exact h place other hold

theorem AllPristine.createSessions {edge : Uuid × Uuid × NetworkTopologyEdge}
    (h : AllPristine state)
    (hcreate : NetworkManager.createSessions forms uuids state edge = .ok state') :
    AllPristine state' := by
  obtain ⟨-, -, -, hextends⟩ := hostedAt_createSessions hcreate
  intro place hosted' hhosted'
  have hplace := hextends place
  rw [hhosted'] at hplace
  generalize hbefore : hostedAt state.1 place = before at hplace
  cases hplace with
  | some hmore => exact (h place _ hbefore).extend hmore

theorem allPristine_fromTopology {topology : NetworkTopology} {threadManager : ThreadManager}
    {supply : Supply}
    (h : NetworkManager.fromTopology forms uuids topology threadManager supply = .ok state) :
    AllPristine state := by
  have hnew : AllPristine (NetworkManager.new threadManager supply) := by
    intro place hosted hhosted
    rw [hostedAt, show (NetworkManager.new threadManager supply).1.routers = ∅ from rfl,
      Finmap.lookup_empty] at hhosted
    cases hhosted
  unfold NetworkManager.fromTopology at h
  rcases hvertices : Runs.run (NetworkManager.createRouter uuids)
    (NetworkManager.new threadManager supply) topology.vertices with e | routers
  · simp [hvertices] at h
  · simp only [hvertices] at h
    have hrouters := Runs.run_invariant AllPristine (fun _ _ _ => AllPristine.createRouter) hnew
      hvertices
    exact Runs.run_invariant AllPristine (fun _ _ _ => AllPristine.createSessions) hrouters h

/-- The threads of a network that is made from a topology. -/
theorem unstarted_fromTopology {topology : NetworkTopology} {threadManager : ThreadManager}
    {supply : Supply} (hunwritten : ∀ rib, Unwritten (supply.ribs rib))
    (h : NetworkManager.fromTopology forms uuids topology threadManager supply = .ok state) :
    Unstarted (threadsOf state) := by
  have hhoused := housed_fromTopology hunwritten h
  have hpristine := allPristine_fromTopology h
  refine ⟨?_, ?_⟩
  · intro place self hself
    obtain ⟨hosted, hhosted, rfl⟩ := thread_threadsOf hself
    exact ⟨hosted, (hpristine place hosted hhosted).quiet, rfl⟩
  · intro rib
    obtain ⟨ids, -, hrun⟩ := hhoused.unwritten rib
    exact ⟨ids, hrun⟩

/-- The sessions that are made for the edges have no filters. -/
theorem filtersKeep_fromTopology {topology : NetworkTopology} {threadManager : ThreadManager}
    {supply : Supply}
    (h : NetworkManager.fromTopology forms uuids topology threadManager supply = .ok state) :
    FiltersKeep (settings (threadsOf state)) := by
  have hpristine := allPristine_fromTopology h
  intro place setting port hsetting hport
  obtain ⟨self, hself, rfl⟩ := Option.map_eq_some_iff.mp hsetting
  obtain ⟨hosted, hhosted, rfl⟩ := thread_threadsOf hself
  obtain ⟨session, hsession, hmap⟩ := List.mem_map.mp hport
  obtain ⟨interface, hinterface, rfl⟩ := Option.map_eq_some_iff.mp hmap
  have hnew := (hpristine place hosted hhosted).sessions session hsession
  intro ad
  obtain ⟨hin, hout⟩ := filters_newSession hnew hinterface ad
  exact ⟨congrArg Prod.snd hin, congrArg Prod.snd hout⟩

end Making

/-- An edge between two routers, in either direction. -/
def Adjacent (topology : NetworkTopology) (id id' : Uuid) : Prop :=
  ∃ edge ∈ topology.edges, ∃ side, endpoint edge side = id ∧ endpoint edge side.other = id'

/-- The port of a session that was made for an end of an edge. -/
structure PortFor (base : ℕ) (port : Port) (incidence : Incidence NetworkTopologyEdge) : Prop where
  inChannel : port.inChannel = some (inChannel base incidence)
  outChannel : port.outChannel = some (outChannel base incidence)
  passes : ∀ ad, port.inFilter ad = (true, ad) ∧ port.outFilter ad = (true, ad)

section Edges
variable {uuids : ℕ → Uuid} {start : Supply} {stop : ℕ} {topology : NetworkTopology}
  {state : NetworkManager × Supply} {place place' : Uuid × ℕ} {c : ChannelId}

theorem hosted_of_built (h : Built uuids start stop topology.vertices topology.edges state)
    {hosted : HostedProcess} (hhosted : hostedAt state.1 place = some hosted) :
    place.2 = 0 ∧ List.Forall₂ (SessionFor start.nextChannel) hosted.process.sessions
      (incidences place.1 topology.edges) := by
  obtain ⟨router, hlookup, hprocess⟩ := Option.bind_eq_some_iff.mp hhosted
  have hvertex := (h.keys place.1).mp (Finmap.mem_of_lookup_eq_some hlookup)
  obtain ⟨⟨id, vertex⟩, hmem, rfl⟩ := List.mem_map.mp hvertex
  obtain ⟨router', hlookup', -, -, process, hprocesses, -, -, hsessions⟩ := h.routers _ _ hmem
  obtain rfl := Option.some.inj (hlookup.symm.trans hlookup')
  rw [hprocesses] at hprocess
  cases hn : place.2 with
  | zero =>
    rw [hn] at hprocess
    obtain rfl := Option.some.inj hprocess
    exact ⟨rfl, hsessions⟩
  | succ n =>
    rw [hn] at hprocess
    cases hprocess

theorem portFor_of_session {base : ℕ} {session : BgpSession} {interface : Interface}
    {incidence : Incidence NetworkTopologyEdge} (h : SessionFor base session incidence)
    (hinterface : session.interface = some interface) :
    PortFor base (portOf interface) incidence := by
  refine ⟨?_, ?_, ?_⟩
  · have hin := h.inChannel_eq
    rwa [BgpSession.inChannel, hinterface] at hin
  · have hout := h.outChannel_eq
    rwa [BgpSession.outChannel, hinterface] at hout
  · exact filters_newSession ⟨_, _, _, h⟩ hinterface

/-- The port at a position was made for the end of an edge at that position. -/
theorem incidence_of_portAt (h : Built uuids start stop topology.vertices topology.edges state)
    {setting : Setting} {q : ℕ} {port : Port}
    (hsetting : settings (threadsOf state) place = some setting)
    (hport : setting.ports[q]?.join = some port) :
    place.2 = 0 ∧ ∃ incidence, (incidences place.1 topology.edges)[q]? = some incidence ∧
      PortFor start.nextChannel port incidence := by
  obtain ⟨self, hself, rfl⟩ := Option.map_eq_some_iff.mp hsetting
  obtain ⟨hosted, hhosted, rfl⟩ := thread_threadsOf hself
  obtain ⟨hzero, hsessions⟩ := hosted_of_built h hhosted
  rw [portAt_eq] at hport
  obtain ⟨interface, hat, rfl⟩ := Option.map_eq_some_iff.mp hport
  obtain ⟨session, hsession, hinterface⟩ := Option.bind_eq_some_iff.mp hat
  obtain ⟨hlen, hall⟩ := List.forall₂_iff_get.mp hsessions
  obtain ⟨hlt, rfl⟩ := List.getElem?_eq_some_iff.mp hsession
  have hlt' : q < (incidences place.1 topology.edges).length := hlen ▸ hlt
  exact ⟨hzero, _, List.getElem?_eq_getElem hlt', portFor_of_session (hall q hlt hlt') hinterface⟩

/-- The ports of a thread are made for the ends of the edges at its router. -/
theorem incidence_of_port (h : Built uuids start stop topology.vertices topology.edges state)
    {setting : Setting} {port : Port}
    (hsetting : settings (threadsOf state) place = some setting)
    (hport : some port ∈ setting.ports) :
    place.2 = 0 ∧ ∃ incidence ∈ incidences place.1 topology.edges,
      PortFor start.nextChannel port incidence := by
  obtain ⟨q, hq⟩ := List.mem_iff_getElem?.mp hport
  have hat : setting.ports[q]?.join = some port := by
    rw [hq]
    rfl
  obtain ⟨hzero, incidence, hincidence, hfor⟩ := incidence_of_portAt h hsetting hat
  exact ⟨hzero, incidence, List.mem_of_getElem? hincidence, hfor⟩

/-- A channel that a thread reads is empty at the start. -/
theorem empty_of_reads (h : Built uuids start stop topology.vertices topology.edges state)
    (hloops : ∀ edge ∈ topology.edges, edge.1 ≠ edge.2.1)
    (hreads : Reads (settings (threadsOf state)) place c) :
    place.2 = 0 ∧ (state.2.links c).queue.items = [] := by
  obtain ⟨setting, port, hsetting, hport, hin⟩ := hreads
  obtain ⟨hzero, incidence, hincidence, hin', -, -⟩ := incidence_of_port h hsetting hport
  obtain rfl := Option.some.inj (hin.symm.trans hin')
  obtain ⟨p, hp⟩ := List.mem_iff_getElem?.mp hincidence
  obtain ⟨edge, hedge, -⟩ := eq_position hloops hp
  refine ⟨hzero, ?_⟩
  rw [h.links _ edge hedge (inChannel start.nextChannel incidence)]
  · rfl
  · unfold inChannel
    cases incidence.side with
    | first => exact Or.inr rfl
    | second => exact Or.inl rfl

/-- What one thread writes for another goes along an edge. -/
theorem adjacent_of_feeds (h : Built uuids start stop topology.vertices topology.edges state)
    (hloops : ∀ edge ∈ topology.edges, edge.1 ≠ edge.2.1)
    (hfeeds : Feeds (settings (threadsOf state)) place place') :
    Adjacent topology place.1 place'.1 := by
  obtain ⟨c, ⟨setting, port, hsetting, hport, hout⟩, ⟨setting', port', hsetting', hport', hin⟩⟩ :=
    hfeeds
  obtain ⟨-, incidence, hincidence, -, hout', -⟩ := incidence_of_port h hsetting hport
  obtain ⟨-, incidence', hincidence', hin', -, -⟩ := incidence_of_port h hsetting' hport'
  obtain rfl := Option.some.inj (hout.symm.trans hout')
  have hsame := Option.some.inj (hin.symm.trans hin')
  rw [inChannel_eq] at hsame
  obtain ⟨hindex, hside⟩ := outChannel_injective hsame
  obtain ⟨p, hp⟩ := List.mem_iff_getElem?.mp hincidence
  obtain ⟨p', hp'⟩ := List.mem_iff_getElem?.mp hincidence'
  obtain ⟨edge, hedge, hend, -⟩ := eq_position hloops hp
  obtain ⟨edge', hedge', hend', -⟩ := eq_position hloops hp'
  rw [hindex] at hedge
  obtain rfl := Option.some.inj (hedge.symm.trans hedge')
  refine ⟨edge, List.mem_of_getElem? hedge, incidence.side, hend, ?_⟩
  rw [show incidence.side = incidence'.side.other from hside, Side.other_other]
  exact hend'

/-- The origin of what a thread holds is at a router from which edges lead there, and arrived
while the network ran. -/
theorem outside_of_origin {γ : Type*} {tells : Advertisement → γ → Prop}
    {history : List (Option (Uuid × ℕ) × Effect)} {fact : γ}
    (h : Built uuids start stop topology.vertices topology.edges state)
    (hloops : ∀ edge ∈ topology.edges, edge.1 ≠ edge.2.1)
    (horigin : Origin tells (Arrives (threadsOf state) history) (settings (threadsOf state)) place
      fact) :
    ∃ id c ad, Relation.ReflTransGen (Adjacent topology) id place.1 ∧
      Accepts (settings (threadsOf state)) (id, 0) c ad ∧
      (none, .put c (.advertisement ad)) ∈ history ∧ tells ad fact := by
  obtain ⟨source, c, ad, haccepts, harrives, htells, hpath⟩ := horigin
  obtain ⟨hzero, hempty⟩ := empty_of_reads h hloops haccepts.reads
  have hsource : source = (source.1, 0) := Prod.ext rfl hzero
  refine ⟨source.1, c, ad, ?_, hsource ▸ haccepts, ?_, htells⟩
  · exact Relation.ReflTransGen.lift Prod.fst
      (fun _ _ hfeeds => adjacent_of_feeds h hloops hfeeds) _ _ hpath
  · rcases harrives with hqueued | hput
    · have hmem : Message.advertisement ad ∈ (state.2.links c).queue.items := hqueued
      rw [hempty] at hmem
      exact absurd hmem List.not_mem_nil
    · exact hput

end Edges

/-- In a network made from a topology without loops, whatever the order of the steps and
whatever is lost, a router holds a prefix with a next hop only if that prefix was announced with
that next hop from outside, at a router from which the edges of the topology lead to it. -/
theorem held_origin_fromTopology (forms : TextForms) (hforms : Reparses forms) (uuids : ℕ → Uuid)
    (ops : List NetworkTopology.Op) (threadManager : ThreadManager) (supply : Supply)
    (hunwritten : ∀ rib, Unwritten (supply.ribs rib))
    (hloops : ∀ edge ∈ (NetworkTopology.build ops).edges, edge.1 ≠ edge.2.1)
    (hfresh : Fresh uuids threadManager.messageBus supply.drawn
      (2 * (NetworkTopology.build ops).vertices.length +
        6 * (NetworkTopology.build ops).edges.length)) :
    ∃ state, NetworkManager.fromTopology forms uuids (NetworkTopology.build ops) threadManager
        supply = .ok state ∧
      ∀ events state' history, run forms (threadsOf state) events = .ok (state', history) →
        ∀ place hosted network route, hostedAt state.1 place = some hosted →
          route ∈ (state'.shared.ribs hosted.rib).held place.1 network →
          ∃ id c ad, Relation.ReflTransGen (Adjacent (NetworkTopology.build ops)) id place.1 ∧
            Accepts (settings (threadsOf state)) (id, 0) c ad ∧
            (none, .put c (.advertisement ad)) ∈ history ∧
            Announces forms ad (network, route.nextHop) := by
  obtain ⟨state, stop, hfrom, hbuilt⟩ := @built_fromTopology forms uuids supply _ threadManager
    (NetworkTopology.wellFormed_build ops) hloops hfresh
  have hhoused := housed_fromTopology hunwritten hfrom
  refine ⟨state, hfrom, ?_⟩
  intro events state' history hrun place hosted network route hhosted hheld
  have hfilters := filtersKeep_fromTopology hfrom
  obtain ⟨rfl, source, setting, c, ad, hsetting, hrib, -, haccepts, hcarried, hroute⟩ :=
    (unstarted_fromTopology hunwritten hfrom).announced hforms hfilters hrun hheld
  have horigin := origin_of_carried hforms hfilters haccepts hcarried hroute
  obtain ⟨self, hself, rfl⟩ := Option.map_eq_some_iff.mp hsetting
  obtain ⟨hosted', hhosted', rfl⟩ := thread_threadsOf hself
  obtain rfl := hhoused.own source place hosted' hosted hhosted' hhosted hrib
  exact outside_of_origin hbuilt hloops horigin

theorem held_origin_fromTopology_parallel :
    ∃ state, NetworkManager.fromTopology .sample (fun n => BitVec.ofNat 128 n)
        (NetworkTopology.build parallelEdges) .new .initial = .ok state ∧
      ∀ events state' history, run .sample (threadsOf state) events = .ok (state', history) →
        ∀ place hosted network route, hostedAt state.1 place = some hosted →
          route ∈ (state'.shared.ribs hosted.rib).held place.1 network →
          ∃ id c ad, Relation.ReflTransGen (Adjacent (NetworkTopology.build parallelEdges)) id
              place.1 ∧
            Accepts (settings (threadsOf state)) (id, 0) c ad ∧
            (none, .put c (.advertisement ad)) ∈ history ∧
            Announces .sample ad (network, route.nextHop) := by
  have hcounts : 2 * (NetworkTopology.build parallelEdges).vertices.length +
      6 * (NetworkTopology.build parallelEdges).edges.length = 16 := by decide
  refine held_origin_fromTopology .sample reparses_sample _ parallelEdges .new .initial
    (fun _ => unwritten_new) (by decide) ?_
  rw [hcounts]
  exact fresh_ofNat (by decide)

end NetfabricBgp.TopologyOrigins
