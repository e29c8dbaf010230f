import NetfabricBgp.SpreadRuns
import NetfabricBgp.TopologyOrigins

/-!
How a prefix spreads through a network that is made from a topology. Each edge is a link in
either direction, and nothing is known at the start, so a prefix that a router has learnt goes
along every path of the topology whose routers have a cycle each, one after the other.
-/
namespace NetfabricBgp.TopologySpreads

open Addresses Routes RouterMasks Ribs RibInterfaces Advertisements KeyedLog BoundedQueues Channels
  Interfaces Sessions Processes Supplies MessageBuses Topologies Routers Networks Incidences
  TopologyWirings QuietNetworks JoinedSessions ProcessThreads ThreadSteps ThreadCycles Speakers
  TopologyThreads Flows Origins TopologyOrigins Spreads SpreadRuns

section Making
variable {forms : TextForms} {uuids : ℕ → Uuid} {topology : NetworkTopology}
  {state : NetworkManager × Supply}

theorem ready_newSession {session : BgpSession} {interface : Interface} (h : NewSession session)
    (hinterface : session.interface = some interface) : Ready interface := by
  obtain ⟨ip, inChannel, outChannel, id, rfl⟩ := interface_of_newSession h hinterface
  refine ⟨rfl, ?_, ?_⟩
  · show 0 < OUTGOING_ADVERTISEMENTS_CAPACITY
    decide
  · show 0 < OUTGOING_ADVERTISEMENTS_CAPACITY
    decide

/-- Processes with their own RIBs know nothing. -/
theorem silent_of_housed (h : Housed state)
    (htidy : ∀ place self, (threadsOf state).thread place = some self → Tidy self) :
    Silent (threadsOf state) := by
  refine ⟨?_, htidy⟩
  intro place self hself
  obtain ⟨hosted, hhosted, rfl⟩ := thread_threadsOf hself
  obtain ⟨⟨other, hother, -, hspeaks⟩, hown⟩ := h.speaks hhosted
  obtain rfl := Option.some.inj (hself.symm.trans hother)
  exact ⟨hself, hspeaks, hown⟩

theorem tidy_start {hosted : HostedProcess} (h : QuietProcess hosted.process)
    (hready : ∀ n interface, (Thread.start hosted).interfaceAt n = some interface →
      Ready interface) : Tidy (Thread.start hosted) := by
  refine ⟨hready, ?_, fun _ => h.advertisement⟩
  show hosted.process.advertisement.length ≤ 1
  rw [h.advertisement]
  exact Nat.zero_le 1

theorem silent_fromTopology {threadManager : ThreadManager} {supply : Supply}
    (hunwritten : ∀ rib, Unwritten (supply.ribs rib))
    (h : NetworkManager.fromTopology forms uuids topology threadManager supply = .ok state) :
    Silent (threadsOf state) := by
  have hpristine := allPristine_fromTopology h
  refine silent_of_housed (housed_fromTopology hunwritten h) ?_
  intro place self hself
  obtain ⟨hosted, hhosted, rfl⟩ := thread_threadsOf hself
  have hplace := hpristine place hosted hhosted
  refine tidy_start hplace.quiet ?_
  intro n interface hat
  obtain ⟨session, hsession, hinterface⟩ := Option.bind_eq_some_iff.mp hat
  exact ready_newSession (hplace.sessions session (List.mem_of_getElem? hsession)) hinterface

end Making

section Edges
variable {forms : TextForms} {network : IpNetwork} {uuids : ℕ → Uuid} {start : Supply} {stop : ℕ}
  {topology : NetworkTopology} {state : NetworkManager × Supply} {place : Uuid × ℕ}

/-- Every end of an edge has its port. -/
theorem exists_portAt (h : Built uuids start stop topology.vertices topology.edges state)
    {id : Uuid} {q : ℕ} {incidence : Incidence NetworkTopologyEdge}
    (hvertex : id ∈ topology.vertices.map Prod.fst)
    (hincidence : (incidences id topology.edges)[q]? = some incidence) :
    ∃ setting port, settings (threadsOf state) (id, 0) = some setting ∧
      setting.ports[q]?.join = some port ∧ PortFor start.nextChannel port incidence := by
  obtain ⟨⟨id, vertex⟩, hmem, rfl⟩ := List.mem_map.mp hvertex
  obtain ⟨router, hlookup, -, -, process, hprocesses, -, -, hsessions⟩ := h.routers _ _ hmem
  have hhosted : hostedAt state.1 (id, 0) = some process := by
    unfold hostedAt
    rw [hlookup, Option.bind_some, hprocesses]
    rfl
  obtain ⟨hlen, hall⟩ := List.forall₂_iff_get.mp hsessions
  obtain ⟨hlt, rfl⟩ := List.getElem?_eq_some_iff.mp hincidence
  have hlt' : q < process.process.sessions.length := hlen.symm ▸ hlt
  have hfor : SessionFor start.nextChannel process.process.sessions[q]
      (incidences id topology.edges)[q] := hall q hlt' hlt
  obtain ⟨-, interface, hinterface, -⟩ := hfor
  have hat : (Thread.start process).interfaceAt q = some interface := by
    show process.process.sessions[q]?.bind _ = _
    rw [List.getElem?_eq_getElem hlt']
    exact hinterface
  refine ⟨settingOf (.start process), portOf interface, ?_, ?_, ?_⟩
  · show ((hostedAt state.1 (id, 0)).map Thread.start).map settingOf = _
    rw [hhosted]
    rfl
  · rw [portAt_eq, hat]
    rfl
  · exact portFor_of_session (hall q hlt' hlt) hinterface

/-- An edge links its ends in either direction. -/
theorem linked_of_edge (h : Built uuids start stop topology.vertices topology.edges state)
    (htopology : topology.WellFormed) (hloops : ∀ edge ∈ topology.edges, edge.1 ≠ edge.2.1) {k : ℕ}
    {edge : Uuid × Uuid × NetworkTopologyEdge} (hedge : topology.edges[k]? = some edge)
    (side : Side) :
    ∃ m n c, Linked forms network (settings (threadsOf state)) (endpoint edge side, 0)
      (endpoint edge side.other, 0) m n c := by
  have hmem := List.mem_of_getElem? hedge
  have hends : ∀ side, endpoint edge side ∈ topology.vertices.map Prod.fst := by
    intro side
    cases side with
    | first => exact (htopology.ends edge hmem).1
    | second => exact (htopology.ends edge hmem).2
  obtain ⟨setting, port, hsetting, hport, hfor⟩ :=
    exists_portAt h (hends side) (getElem?_position hloops hedge side)
  obtain ⟨setting', port', hsetting', hport', hfor'⟩ :=
    exists_portAt h (hends side.other) (getElem?_position hloops hedge side.other)
  have hback : inChannel start.nextChannel ⟨k, side.other, edge.2.2⟩ =
      outChannel start.nextChannel ⟨k, side, edge.2.2⟩ := by
    rw [inChannel_eq, Side.other_other]
  refine ⟨position (endpoint edge side) topology.edges k,
    position (endpoint edge side.other) topology.edges k,
    outChannel start.nextChannel ⟨k, side, edge.2.2⟩, ?_, ?_, ?_, ?_⟩
  · intro hsame
    have hne := hloops edge hmem
    cases side with
    | first => exact hne (Prod.mk.inj hsame).1
    | second => exact hne (Prod.mk.inj hsame).1.symm
  · exact ⟨setting, port, hsetting, hport, hfor.outChannel, fun ad _ => (hfor.passes ad).2⟩
  · exact ⟨setting', port', hsetting', hport', hfor'.inChannel.trans (congrArg some hback),
      fun ad _ => (hfor'.passes ad).1⟩
  · intro place other q port'' hother hport'' hin
    obtain ⟨hzero, incidence, hincidence, hfor''⟩ := incidence_of_portAt h hother hport''
    have hsame := Option.some.inj (hfor''.inChannel.symm.trans hin)
    rw [inChannel_eq] at hsame
    obtain ⟨hindex, hside⟩ := outChannel_injective hsame
    have hothers : incidence.side = side.other := by
      rw [← show incidence.side.other = side from hside, Side.other_other]
    have hplace : (place.1, q) = placeOf topology.edges k edge incidence.side :=
      place_eq hloops hedge hincidence hindex
    rw [hothers] at hplace
    obtain ⟨hid, hq⟩ := Prod.mk.inj hplace
    exact ⟨Prod.ext hid hzero, hq⟩

/-- What a router tells can be read, if its address and the prefix can. -/
theorem legible_of_built (h : Built uuids start stop topology.vertices topology.edges state)
    (hpfx : forms.fromStrTruncate (forms.networkToString network) = some network)
    (hpeers : ∀ vertex ∈ topology.vertices,
      (forms.parse (forms.addrToString vertex.2.processConfig.ip)).isSome = true)
    {setting : Setting} (hsetting : settings (threadsOf state) place = some setting) :
    Legible forms network setting := by
  refine ⟨hpfx, ?_⟩
  obtain ⟨self, hself, rfl⟩ := Option.map_eq_some_iff.mp hsetting
  obtain ⟨hosted, hhosted, rfl⟩ := thread_threadsOf hself
  obtain ⟨router, hlookup, hprocess⟩ := Option.bind_eq_some_iff.mp hhosted
  have hvertex := (h.keys place.1).mp (Finmap.mem_of_lookup_eq_some hlookup)
  obtain ⟨⟨id, vertex⟩, hmem, hid⟩ := List.mem_map.mp hvertex
  obtain ⟨router', hlookup', -, -, process, hprocesses, hconfig, -⟩ := h.routers _ _ hmem
  rw [← hid] at hlookup
  obtain rfl := Option.some.inj (hlookup.symm.trans hlookup')
  rw [hprocesses] at hprocess
  obtain rfl := List.mem_singleton.mp (List.mem_of_getElem? hprocess)
  show (forms.parse (forms.addrToString hosted.process.config.ip)).isSome = true
  rw [hconfig]
  exact hpeers _ hmem

end Edges

/-- In a network made from a topology without loops, each edge is a link in either direction. In
every run in which no lock is missed, nothing is lost and the prefix is not withdrawn, a prefix that
one router holds a route for is held by another after a cycle of each router on a path of links
between them. -/
theorem hasRoute_fromTopology (forms : TextForms) (uuids : ℕ → Uuid)
    (ops : List NetworkTopology.Op) (threadManager : ThreadManager) (supply : Supply)
    (hunwritten : ∀ rib, Unwritten (supply.ribs rib))
    (hloops : ∀ edge ∈ (NetworkTopology.build ops).edges, edge.1 ≠ edge.2.1)
    (hfresh : Fresh uuids threadManager.messageBus supply.drawn
      (2 * (NetworkTopology.build ops).vertices.length +
        6 * (NetworkTopology.build ops).edges.length)) (network : IpNetwork)
    (hpfx : forms.fromStrTruncate (forms.networkToString network) = some network)
    (hpeers : ∀ vertex ∈ (NetworkTopology.build ops).vertices,
      (forms.parse (forms.addrToString vertex.2.processConfig.ip)).isSome = true) :
    ∃ state, NetworkManager.fromTopology forms uuids (NetworkTopology.build ops) threadManager
        supply = .ok state ∧
      (∀ id id', Adjacent (NetworkTopology.build ops) id id' → ∃ m n c,
        Linked forms network (settings (threadsOf state)) (id, 0) (id', 0) m n c) ∧
      ∀ events reached history, run forms (threadsOf state) events = .ok (reached, history) →
        Undisturbed forms network events history →
        ∀ place state' place', Relayed forms network reached place state' place' →
          HasRoute reached place network → HasRoute state' place' network := by
  have htopology := NetworkTopology.wellFormed_build ops
  obtain ⟨state, stop, hfrom, hbuilt⟩ := @built_fromTopology forms uuids supply _ threadManager
    htopology hloops hfresh
  refine ⟨state, hfrom, ?_, ?_⟩
  · intro id id' hadjacent
    obtain ⟨edge, hmem, side, rfl, rfl⟩ := hadjacent
    obtain ⟨k, hedge⟩ := List.mem_iff_getElem?.mp hmem
    exact linked_of_edge hbuilt htopology hloops hedge side
  · intro events reached history hrun hundisturbed place state' place' hrelayed hroute
    have hsilent := silent_fromTopology hunwritten hfrom
    have hspreading : Spreading forms network (threadsOf state) :=
      hsilent.spreading (fun place setting => legible_of_built hbuilt hpfx hpeers)
    obtain ⟨-, -, -, hroute'⟩ := hrelayed.hasRoute (hspreading.run hrun hundisturbed) hroute
    exact hroute'

/-- The prefix is announced to the first router, which has a cycle, and then the second one. -/
def firstCycle : List (Event (Uuid × ℕ)) :=
  .arrive 1 (.advertisement (.sample "10.0.0.2" "10.0.0.1" [65001] true false)) ::
    List.replicate 16 (.act (1, 0) ⟨.acquired, 0⟩)

def secondCycle : List (Event (Uuid × ℕ)) := List.replicate 18 (.act (2, 0) ⟨.acquired, 0⟩)

set_option maxRecDepth 10000 in
theorem exists_cycles :
    ∃ state reached state' before after,
      NetworkManager.fromTopology .sample (fun n => BitVec.ofNat 128 n)
        (NetworkTopology.build parallelEdges) .new .initial = .ok state ∧
      run .sample (threadsOf state) firstCycle = .ok (reached, before) ∧
      run .sample reached secondCycle = .ok (state', after) ∧
      AtStart reached (1, 0) ∧ AtStart reached (2, 0) ∧ AtStart state' (2, 0) ∧
      HasRoute reached (1, 0) (.V4 (.around 0x0A000000#32 8)) ∧
      (∀ entry ∈ before ++ after,
        Lossless .sample (.V4 (.around 0x0A000000#32 8)) entry) ∧
      ∃ ad, after[4]? = some (some (2, 0), .publish ad) :=
  ⟨_, _, _, _, _, rfl, rfl, rfl, ⟨_, rfl, rfl⟩, ⟨_, rfl, rfl⟩, ⟨_, rfl, rfl⟩,
    ⟨_, rfl, by decide⟩, by decide, _, rfl⟩

theorem hasRoute_fromTopology_parallel :
    ∃ state reached state' before after,
      NetworkManager.fromTopology .sample (fun n => BitVec.ofNat 128 n)
        (NetworkTopology.build parallelEdges) .new .initial = .ok state ∧
      run .sample (threadsOf state) firstCycle = .ok (reached, before) ∧
      run .sample reached secondCycle = .ok (state', after) ∧
      Relayed .sample (.V4 (.around 0x0A000000#32 8)) reached (1, 0) state' (2, 0) ∧
      HasRoute state' (2, 0) (.V4 (.around 0x0A000000#32 8)) := by
  have hcounts : 2 * (NetworkTopology.build parallelEdges).vertices.length +
      6 * (NetworkTopology.build parallelEdges).edges.length = 16 := by decide
  have hadjacent : Adjacent (NetworkTopology.build parallelEdges) 1 2 :=
    ⟨_, List.mem_cons_self, .first, rfl, rfl⟩
  obtain ⟨made, reached, state', before, after, hmade, hfirst, hsecond, hstart, hstarted, hend,
    hroute, hlossless, ad, had⟩ := exists_cycles
  obtain ⟨state, hfrom, hlinks, hspread⟩ := hasRoute_fromTopology .sample
    (fun n => BitVec.ofNat 128 n) parallelEdges .new .initial (fun _ => unwritten_new) (by decide)
    (by rw [hcounts]; exact fresh_ofNat (by decide)) (.V4 (.around 0x0A000000#32 8)) (by decide)
    (by decide)
  obtain rfl := Except.ok.inj (hmade.symm.trans hfrom)
  obtain ⟨m, n, c, hlinked⟩ := hlinks 1 2 hadjacent
  have hbefore : Undisturbed .sample (.V4 (.around 0x0A000000#32 8)) firstCycle before :=
    ⟨by decide, fun entry hentry => hlossless entry (List.mem_append_left _ hentry)⟩
  have hafter : Undisturbed .sample (.V4 (.around 0x0A000000#32 8)) secondCycle after :=
    ⟨by decide, fun entry hentry => hlossless entry (List.mem_append_right _ hentry)⟩
  rw [← settings_run hfirst] at hlinked
  have hnothing : run .sample reached [] = .ok (reached, []) := rfl
  have hidle : Undisturbed .sample (.V4 (.around 0x0A000000#32 8)) ([] : List (Event (Uuid × ℕ)))
      [] := ⟨List.forall_mem_nil _, List.forall_mem_nil _⟩
  have hrelayed : Relayed .sample (.V4 (.around 0x0A000000#32 8)) reached (1, 0) state' (2, 0) :=
    .hop (.start hstart) hlinked hnothing hidle hstarted hsecond hafter
      (List.mem_of_getElem? had) hend
  exact ⟨made, reached, state', before, after, hmade, hfirst, hsecond, hrelayed,
    hspread _ reached before hfirst hbefore _ state' _ hrelayed hroute⟩

end NetfabricBgp.TopologySpreads
