import NetfabricBgp.BufferLosses
import NetfabricBgp.TopologyWirings

/-!
Between which sessions the edges of a topology run. Each end of an edge has its place among
the sessions of its router, and what is sent at one end is received at the other, by no
other session of the network.
-/
namespace NetfabricBgp.JoinedSessions

open RouterMasks Advertisements BoundedQueues Channels Interfaces Sessions Supplies MessageBuses
  Topologies Routers Networks Incidences TopologyWirings

/-- The session at a position of the first process of a router. -/
def sessionAt (network : NetworkManager) (place : Uuid × ℕ) : Option BgpSession :=
  (network.routers.lookup place.1).bind (fun router =>
    router.bgpProcesses.head?.bind (fun process => process.process.sessions[place.2]?))

/-- The sender's advertisements reach the receiver over a channel that no other session uses. -/
structure Leads (network : NetworkManager) (links : Links) (bound : ℕ) (source target : Uuid × ℕ)
    (sender receiver : BgpSession) : Prop where
  channel : ∃ channel, sender.outChannel = some channel ∧ receiver.inChannel = some channel ∧
    links channel = Channel.create bound ∧
    ∀ place session, sessionAt network place = some session →
      (session.outChannel = some channel → place = source) ∧
      (session.inChannel = some channel → place = target)
  delivered : 0 < bound → ∀ advertisement,
    (receiver.receive .acquired (sender.send [advertisement] links).1).2.2 = .ok [advertisement]
  undisturbed : ∀ place session, sessionAt network place = some session → place ≠ target →
    ∀ advertisements links lock,
      (session.receive lock (sender.send advertisements links).1).2.2 =
        (session.receive lock links).2.2

/-- Where the session of one end of an edge stands. -/
def placeOf (edges : List (Uuid × Uuid × NetworkTopologyEdge)) (k : ℕ)
    (edge : Uuid × Uuid × NetworkTopologyEdge) (side : Side) : Uuid × ℕ :=
  (endpoint edge side, position (endpoint edge side) edges k)

/-- One router for each vertex, with one process and the sessions of the vertex, and each
edge joins its two sessions crosswise. -/
structure Wired (topology : NetworkTopology) (network : NetworkManager) (links : Links) :
    Prop where
  keys : ∀ id, id ∈ network.routers ↔ id ∈ topology.vertices.map Prod.fst
  routers : ∀ id vertex, (id, vertex) ∈ topology.vertices → ∃ router process,
    network.routers.lookup id = some router ∧ router.id = id ∧
    router.options = vertex.routerOptions ∧ router.bgpProcesses = [process] ∧
    process.process.config = vertex.processConfig ∧ process.process.ribInterface.clientId = id ∧
    process.process.sessions.map (·.config) = (incidences id topology.edges).map sideConfig
  edges : ∀ k edge, topology.edges[k]? = some edge → ∃ session1 session2,
    sessionAt network (placeOf topology.edges k edge .first) = some session1 ∧
    sessionAt network (placeOf topology.edges k edge .second) = some session2 ∧
    session1.config = edge.2.2.sessionConfigs.1 ∧ session2.config = edge.2.2.sessionConfigs.2 ∧
    Leads network links edge.2.2.linkBufferSize.toNat (placeOf topology.edges k edge .first)
      (placeOf topology.edges k edge .second) session1 session2 ∧
    Leads network links edge.2.2.linkBufferSize.toNat (placeOf topology.edges k edge .second)
      (placeOf topology.edges k edge .first) session2 session1

section Sides
variable {base : ℕ} {incidence incidence' : Incidence NetworkTopologyEdge}

theorem outChannel_injective (h : outChannel base incidence = outChannel base incidence') :
    incidence.index = incidence'.index ∧ incidence.side = incidence'.side := by
  unfold outChannel at h
  cases hside : incidence.side <;> cases hside' : incidence'.side <;> simp only [hside, hside'] at h
  · exact ⟨by omega, rfl⟩
  · omega
  · omega
  · exact ⟨by omega, rfl⟩

/-- The way in of an end is the way out of the other one. -/
theorem inChannel_eq (base : ℕ) (incidence : Incidence NetworkTopologyEdge) :
    inChannel base incidence = outChannel base { incidence with side := incidence.side.other } := by
  cases hside : incidence.side <;> simp [inChannel, outChannel, Side.other, hside]

end Sides

section Places
variable {uuids : ℕ → Uuid} {start : Supply} {stop : ℕ}
  {vertices : List (Uuid × NetworkTopologyVertex)}
  {edges : List (Uuid × Uuid × NetworkTopologyEdge)} {state : NetworkManager × Supply}
  {place : Uuid × ℕ} {session : BgpSession} {incidence : Incidence NetworkTopologyEdge}

/-- The sessions at a vertex match the ends of the edges there. -/
theorem exists_sessions (h : Built uuids start stop vertices edges state)
    (hvertex : place.1 ∈ vertices.map Prod.fst) :
    ∃ sessions : List BgpSession, sessionAt state.1 place = sessions[place.2]? ∧
      List.Forall₂ (SessionFor start.nextChannel) sessions (incidences place.1 edges) := by
  obtain ⟨vertex, hmem⟩ : ∃ vertex, (place.1, vertex) ∈ vertices := by simpa using hvertex
  obtain ⟨router, hlookup, -, -, process, hprocesses, -, -, hsessions⟩ := h.routers _ _ hmem
  refine ⟨process.process.sessions, ?_, hsessions⟩
  unfold sessionAt
  rw [hlookup, Option.bind_some, hprocesses]
  rfl

/-- Every session of the network was made for an end of an edge. -/
theorem exists_incidence (h : Built uuids start stop vertices edges state)
    (hsession : sessionAt state.1 place = some session) :
    ∃ incidence, (incidences place.1 edges)[place.2]? = some incidence ∧
      SessionFor start.nextChannel session incidence := by
  have hmem : place.1 ∈ state.1.routers := by
    by_contra hnot
    rw [sessionAt, Finmap.lookup_eq_none.mpr hnot] at hsession
    cases hsession
  obtain ⟨sessions, hat, hsessions⟩ := exists_sessions h ((h.keys place.1).mp hmem)
  rw [hat] at hsession
  obtain ⟨hlen, hall⟩ := List.forall₂_iff_get.mp hsessions
  obtain ⟨hlt, rfl⟩ := List.getElem?_eq_some_iff.mp hsession
  exact ⟨_, List.getElem?_eq_getElem (hlen ▸ hlt), hall place.2 hlt (hlen ▸ hlt)⟩

/-- Every end of an edge has its session. -/
theorem exists_session (h : Built uuids start stop vertices edges state)
    (hvertex : place.1 ∈ vertices.map Prod.fst)
    (hincidence : (incidences place.1 edges)[place.2]? = some incidence) :
    ∃ session, sessionAt state.1 place = some session ∧
      SessionFor start.nextChannel session incidence := by
  obtain ⟨sessions, hat, hsessions⟩ := exists_sessions h hvertex
  rw [hat]
  obtain ⟨hlen, hall⟩ := List.forall₂_iff_get.mp hsessions
  obtain ⟨hlt, rfl⟩ := List.getElem?_eq_some_iff.mp hincidence
  exact ⟨_, List.getElem?_eq_getElem (hlen ▸ hlt), hall place.2 (hlen ▸ hlt) hlt⟩

/-- The end of an edge that a session was made for tells its place. -/
theorem place_eq {k : ℕ} {edge : Uuid × Uuid × NetworkTopologyEdge}
    (hloops : ∀ edge ∈ edges, edge.1 ≠ edge.2.1) (hedge : edges[k]? = some edge)
    (hincidence : (incidences place.1 edges)[place.2]? = some incidence)
    (hindex : incidence.index = k) :
    place = placeOf edges k edge incidence.side := by
  obtain ⟨edge', hedge', hend, -, hpos⟩ := eq_position hloops hincidence
  rw [hindex] at hedge' hpos
  obtain rfl := Option.some.inj (hedge'.symm.trans hedge)
  unfold placeOf
  rw [hend, ← hpos]

end Places

section Joining
variable {config config' : SessionConfig} {channel channel' back back' bound : ℕ} {links : Links}
  {sender receiver : BgpSession}

/-- An advertisement crosses an empty channel between two new sessions. -/
theorem received_of_made (hsender : BgpSession.MadeWith config back channel sender)
    (hreceiver : BgpSession.MadeWith config' channel back' receiver)
    (hlinks : links channel = Channel.create bound) (hbound : 0 < bound)
    (advertisement : Advertisement) :
    (receiver.receive .acquired (sender.send [advertisement] links).1).2.2 =
      .ok [advertisement] := by
  obtain ⟨-, interface, hinterface, id, rfl⟩ := hsender
  obtain ⟨-, interface', hinterface', id', rfl⟩ := hreceiver
  have hroom : (links channel).room = bound := by
    rw [hlinks]
    rfl
  have hfits : [advertisement].length ≤ OUTGOING_ADVERTISEMENTS_CAPACITY := by
    show 1 ≤ 1000
    omega
  obtain ⟨-, -, hqueue⟩ := BufferLosses.session_send_fits links hinterface rfl hfits
  have hsent : ((sender.send [advertisement] links).1 channel).queue.items =
      [.advertisement advertisement] := by
    rw [hqueue, hroom, hlinks]
    obtain ⟨rest, rfl⟩ := Nat.exists_eq_add_of_lt hbound
    simp [accepted, Channel.create, Bounded.empty, Interface.new, NoFilter]
  unfold BgpSession.receive Interface.receive
  rw [hinterface']
  simp only [hsent]
  simp [receiveLoop, Message.cast, Interface.new, NoFilter, Bounded.empty, Bounded.push,
    INCOMING_ADVERTISEMENTS_CAPACITY, Interface.getIncomingAdvertisements]

end Joining

section Edges
variable {uuids : ℕ → Uuid} {start : Supply} {stop : ℕ}
  {vertices : List (Uuid × NetworkTopologyVertex)}
  {edges : List (Uuid × Uuid × NetworkTopologyEdge)} {state : NetworkManager × Supply} {k : ℕ}
  {edge : Uuid × Uuid × NetworkTopologyEdge}

/-- Only the session of an end writes to the channel that leads away from it. -/
theorem place_of_outChannel (h : Built uuids start stop vertices edges state)
    (hloops : ∀ edge ∈ edges, edge.1 ≠ edge.2.1) (hedge : edges[k]? = some edge) {side : Side}
    {place : Uuid × ℕ} {session : BgpSession} (hsession : sessionAt state.1 place = some session)
    (hout : session.outChannel = some (outChannel start.nextChannel ⟨k, side, edge.2.2⟩)) :
    place = placeOf edges k edge side := by
  obtain ⟨incidence, hincidence, hfor⟩ := exists_incidence h hsession
  rw [hfor.outChannel_eq, Option.some.injEq] at hout
  obtain ⟨hindex, hside⟩ := outChannel_injective hout
  rw [place_eq hloops hedge hincidence hindex, hside]

/-- Only the session of the other end reads from it. -/
theorem place_of_inChannel (h : Built uuids start stop vertices edges state)
    (hloops : ∀ edge ∈ edges, edge.1 ≠ edge.2.1) (hedge : edges[k]? = some edge) {side : Side}
    {place : Uuid × ℕ} {session : BgpSession} (hsession : sessionAt state.1 place = some session)
    (hin : session.inChannel = some (outChannel start.nextChannel ⟨k, side, edge.2.2⟩)) :
    place = placeOf edges k edge side.other := by
  obtain ⟨incidence, hincidence, hfor⟩ := exists_incidence h hsession
  rw [hfor.inChannel_eq, Option.some.injEq, inChannel_eq] at hin
  obtain ⟨hindex, hside⟩ := outChannel_injective hin
  have hother : incidence.side = side.other := by
    rw [← show incidence.side.other = side from hside, Side.other_other]
  rw [place_eq hloops hedge hincidence hindex, hother]

/-- The session of one end of an edge leads to that of the other end. -/
theorem leads (h : Built uuids start stop vertices edges state)
    (hloops : ∀ edge ∈ edges, edge.1 ≠ edge.2.1) (hedge : edges[k]? = some edge) (side : Side)
    {sender receiver : BgpSession}
    (hsender : SessionFor start.nextChannel sender ⟨k, side, edge.2.2⟩)
    (hreceiver : SessionFor start.nextChannel receiver ⟨k, side.other, edge.2.2⟩) :
    Leads state.1 state.2.links edge.2.2.linkBufferSize.toNat (placeOf edges k edge side)
      (placeOf edges k edge side.other) sender receiver := by
  let channel := outChannel start.nextChannel ⟨k, side, edge.2.2⟩
  have hback : inChannel start.nextChannel ⟨k, side.other, edge.2.2⟩ = channel := by
    rw [inChannel_eq]
    cases side <;> rfl
  have hlinks : state.2.links channel = Channel.create edge.2.2.linkBufferSize.toNat := by
    apply h.links k edge hedge channel
    cases side with
    | first => exact Or.inl rfl
    | second => exact Or.inr rfl
  refine ⟨⟨channel, hsender.outChannel_eq, ?_, hlinks, ?_⟩, ?_, ?_⟩
  · rw [hreceiver.inChannel_eq, hback]
  · intro place session hsession
    exact ⟨place_of_outChannel h hloops hedge hsession, place_of_inChannel h hloops hedge hsession⟩
  · intro hbound advertisement
    unfold SessionFor at hreceiver
    rw [hback] at hreceiver
    exact received_of_made hsender hreceiver hlinks hbound advertisement
  · intro place session hsession hplace advertisements links lock
    obtain ⟨incidence, -, hfor⟩ := exists_incidence h hsession
    have hne : sender.outChannel ≠ some (inChannel start.nextChannel incidence) := by
      intro hout
      rw [hsender.outChannel_eq, ← hfor.inChannel_eq] at hout
      exact hplace (place_of_inChannel h hloops hedge hsession hout.symm)
    rw [BgpSession.receive_congr lock hfor.inChannel_eq (BgpSession.send_of_ne advertisements hne)]

/-- What the loops have made is wired. -/
theorem wired_of_built {topology : NetworkTopology} (htopology : topology.WellFormed)
    (hloops : ∀ edge ∈ topology.edges, edge.1 ≠ edge.2.1)
    (h : Built uuids start stop topology.vertices topology.edges state) :
    Wired topology state.1 state.2.links := by
  refine ⟨h.keys, ?_, ?_⟩
  · intro id vertex hvertex
    obtain ⟨router, hlookup, hid, hoptions, process, hprocesses, hconfig, hclient, hsessions⟩ :=
      h.routers id vertex hvertex
    refine ⟨router, process, hlookup, hid, hoptions, hprocesses, hconfig, hclient, ?_⟩
    rw [← List.forall₂_eq_eq_eq, List.forall₂_map_left_iff, List.forall₂_map_right_iff]
    exact hsessions.imp (fun session incidence hfor => hfor.1)
  · intro k edge hedge
    obtain ⟨hfirst, hsecond⟩ := htopology.ends edge (List.mem_of_getElem? hedge)
    obtain ⟨session1, hat1, hfor1⟩ :=
      @exists_session _ _ _ _ _ _ (placeOf topology.edges k edge .first) _ h hfirst
        (getElem?_position hloops hedge .first)
    obtain ⟨session2, hat2, hfor2⟩ :=
      @exists_session _ _ _ _ _ _ (placeOf topology.edges k edge .second) _ h hsecond
        (getElem?_position hloops hedge .second)
    exact ⟨session1, session2, hat1, hat2, hfor1.1, hfor2.1,
      leads h hloops hedge .first hfor1 hfor2, leads h hloops hedge .second hfor2 hfor1⟩

end Edges

/-- A network made from a topology without loops is wired as the topology says, if fresh
identifiers are distinct. -/
theorem wired_fromTopology (forms : TextForms) (uuids : ℕ → Uuid) (ops : List NetworkTopology.Op)
    (threadManager : ThreadManager) (supply : Supply)
    (hloops : ∀ edge ∈ (NetworkTopology.build ops).edges, edge.1 ≠ edge.2.1)
    (hfresh : Fresh uuids threadManager.messageBus supply.drawn
      (2 * (NetworkTopology.build ops).vertices.length +
        6 * (NetworkTopology.build ops).edges.length)) :
    ∃ network supply', NetworkManager.fromTopology forms uuids (NetworkTopology.build ops)
        threadManager supply = .ok (network, supply') ∧
      Wired (NetworkTopology.build ops) network supply'.links := by
  have htopology := NetworkTopology.wellFormed_build ops
  obtain ⟨⟨network, supply'⟩, stop, hfrom, hbuilt⟩ := @built_fromTopology forms uuids _ _ _
    htopology hloops hfresh
  exact ⟨network, supply', hfrom, wired_of_built htopology hloops hbuilt⟩

/-- Two routers and two edges between them. -/
def parallelEdges : List NetworkTopology.Op :=
  [.addRouter 1 default ⟨.V4 1, 1⟩,
    .addConnection 1 2 (SessionConfig.default, SessionConfig.default) 10,
    .addConnection 2 1 (⟨.V4 1, .V4 1, true⟩, SessionConfig.default) 20]

theorem wired_fromTopology_parallel :
    ∃ network supply', NetworkManager.fromTopology TextForms.sample (fun n => BitVec.ofNat 128 n)
        (NetworkTopology.build parallelEdges) ThreadManager.new Supply.initial =
        .ok (network, supply') ∧
      Wired (NetworkTopology.build parallelEdges) network supply'.links := by
  have hcounts : 2 * (NetworkTopology.build parallelEdges).vertices.length +
      6 * (NetworkTopology.build parallelEdges).edges.length = 16 := by decide
  refine wired_fromTopology TextForms.sample _ parallelEdges ThreadManager.new Supply.initial
    (by decide) ?_
  rw [hcounts]
  exact fresh_ofNat (by decide)

end NetfabricBgp.JoinedSessions
