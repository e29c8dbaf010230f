import NetfabricBgp.Incidences
import NetfabricBgp.Networks

/-!
The network made from a topology is wired as the topology says. Its routers are the
vertices, the sessions of a router are the ends of the edges there, in the order of the
edges, and the two ends of an edge are joined crosswise by two channels of their own.
-/
namespace NetfabricBgp.TopologyWirings

open Addresses RouterMasks Advertisements Channels Interfaces Sessions Processes Supplies
  MessageBuses Topologies Routers Networks Incidences

/-- The configuration of the side of an edge. -/
def sideConfig (incidence : Incidence NetworkTopologyEdge) : SessionConfig :=
  match incidence.side with
  | .first => incidence.label.sessionConfigs.1
  | .second => incidence.label.sessionConfigs.2

/-- Edge `index` gets the channels `base + 2 * index`, from its first end to its second, and
the next one for the way back. -/
def outChannel (base : ℕ) (incidence : Incidence NetworkTopologyEdge) : ℕ :=
  match incidence.side with
  | .first => base + 2 * incidence.index
  | .second => base + 2 * incidence.index + 1

def inChannel (base : ℕ) (incidence : Incidence NetworkTopologyEdge) : ℕ :=
  match incidence.side with
  | .first => base + 2 * incidence.index + 1
  | .second => base + 2 * incidence.index

/-- A session as it is made for an end of an edge. -/
def SessionFor (base : ℕ) (session : BgpSession)
    (incidence : Incidence NetworkTopologyEdge) : Prop :=
  BgpSession.MadeWith (sideConfig incidence) (inChannel base incidence) (outChannel base incidence)
    session

section Channels
variable {base : ℕ} {session : BgpSession} {incidence : Incidence NetworkTopologyEdge}

theorem SessionFor.outChannel_eq (h : SessionFor base session incidence) :
    session.outChannel = some (outChannel base incidence) := by
  obtain ⟨-, interface, hinterface, id, rfl⟩ := h
  rw [BgpSession.outChannel, hinterface]
  rfl

theorem SessionFor.inChannel_eq (h : SessionFor base session incidence) :
    session.inChannel = some (inChannel base incidence) := by
  obtain ⟨-, interface, hinterface, id, rfl⟩ := h
  rw [BgpSession.inChannel, hinterface]
  rfl

end Channels

/-- A router as it is made for a vertex, once the sessions of these edges are attached. -/
def RouterFor (base : ℕ) (edges : List (Uuid × Uuid × NetworkTopologyEdge)) (id : Uuid)
    (vertex : NetworkTopologyVertex) (router : Router) : Prop :=
  router.id = id ∧ router.options = vertex.routerOptions ∧
    ∃ process, router.bgpProcesses = [process] ∧ process.process.config = vertex.processConfig ∧
      process.process.ribInterface.clientId = id ∧
      List.Forall₂ (SessionFor base) process.process.sessions (incidences id edges)

section Steps
variable {forms : TextForms} {uuids : ℕ → Uuid}

/-- A vertex that has no router yet gets one. -/
theorem createRouter_ok (network : NetworkManager) (supply : Supply) (base : ℕ)
    {id : Uuid} (vertex : NetworkTopologyVertex) (hnew : id ∉ network.routers) :
    ∃ router supply', NetworkManager.createRouter uuids (network, supply) (id, vertex) =
        .ok ({ network with routers := network.routers.insert id router }, supply') ∧
      RouterFor base [] id vertex router ∧ supply'.links = supply.links ∧
      supply'.nextChannel = supply.nextChannel ∧ supply'.drawn = supply.drawn + 2 := by
  obtain ⟨process, supply', hfrom, hconfig, hsessions, hsupply⟩ :=
    fromConfig_ok uuids supply vertex.processConfig
  refine ⟨⟨id, vertex.routerOptions, [(process.setRouterId id).setRouterId id]⟩, supply', ?_,
    ⟨rfl, rfl, _, rfl, hconfig, rfl, ?_⟩, hsupply⟩
  · simp only [NetworkManager.createRouter, hfrom, NetworkManager.insertRouter, Router.new,
      Router.withOptions, Router.addBgpProcess, hnew, if_false, List.nil_append, List.map_cons,
      List.map_nil]
  · show List.Forall₂ (SessionFor base) process.process.sessions []
    rw [hsessions]
    exact List.Forall₂.nil

section Attaching
variable {base : ℕ} {edges : List (Uuid × Uuid × NetworkTopologyEdge)}
  {edge : Uuid × Uuid × NetworkTopologyEdge} {id : Uuid} {vertex : NetworkTopologyVertex}
  {router router' : Router} {session : BgpSession} {incidence : Incidence NetworkTopologyEdge}

theorem RouterFor.attach_ok (h : RouterFor base edges id vertex router) (session : BgpSession) :
    ∃ router', Networks.attach router session = .ok router' := by
  obtain ⟨-, -, process, hprocesses, -⟩ := h
  exact ⟨_, by rw [Networks.attach, hprocesses]⟩

/-- A session for the next edge's end is attached behind those of the earlier edges. -/
theorem RouterFor.attach (h : RouterFor base edges id vertex router)
    (hend : endsAt id edge edges.length = [incidence])
    (hsession : SessionFor base session incidence)
    (hattach : Networks.attach router session = .ok router') :
    RouterFor base (edges ++ [edge]) id vertex router' := by
  obtain ⟨hid, hoptions, process, hprocesses, hconfig, hclient, hsessions⟩ := h
  rw [Networks.attach, hprocesses] at hattach
  obtain rfl := Except.ok.inj hattach
  refine ⟨hid, hoptions, process.addSession session, rfl, hconfig, hclient, ?_⟩
  show List.Forall₂ (SessionFor base) (process.process.sessions ++ [session]) _
  rw [incidences_concat, hend]
  exact List.rel_append hsessions (List.Forall₂.cons hsession List.Forall₂.nil)

/-- A router that the next edge does not touch has its sessions already. -/
theorem RouterFor.of_ne (h : RouterFor base edges id vertex router)
    (hfirst : edge.1 ≠ id) (hsecond : edge.2.1 ≠ id) :
    RouterFor base (edges ++ [edge]) id vertex router := by
  unfold RouterFor
  rw [incidences_concat, endsAt_of_ne hfirst hsecond, List.append_nil]
  exact h

end Attaching

/-- The routers of an edge's ends get a session each, joined by two new channels. -/
theorem createSessions_ok {network : NetworkManager} {supply : Supply} {base : ℕ}
    {edges : List (Uuid × Uuid × NetworkTopologyEdge)} {id1 id2 : Uuid}
    {vertex1 vertex2 : NetworkTopologyVertex} {router1 router2 : Router}
    (label : NetworkTopologyEdge) (hne : id1 ≠ id2)
    (hlookup1 : network.routers.lookup id1 = some router1)
    (hlookup2 : network.routers.lookup id2 = some router2)
    (hrouter1 : RouterFor base edges id1 vertex1 router1)
    (hrouter2 : RouterFor base edges id2 vertex2 router2)
    (hbase : supply.nextChannel = base + 2 * edges.length)
    (hfresh : Fresh uuids network.threadManager.messageBus supply.drawn 4) :
    ∃ manager supply' router1' router2',
      NetworkManager.createSessions forms uuids (network, supply) (id1, id2, label) =
        .ok ({ network with
          threadManager := manager
          routers := (network.routers.insert id1 router1').insert id2 router2' }, supply') ∧
      (∀ vertex, RouterFor base edges id1 vertex router1 →
        RouterFor base (edges ++ [(id1, id2, label)]) id1 vertex router1') ∧
      (∀ vertex, RouterFor base edges id2 vertex router2 →
        RouterFor base (edges ++ [(id1, id2, label)]) id2 vertex router2') ∧
      supply'.links = Function.update (Function.update supply.links supply.nextChannel
        (Channel.create label.linkBufferSize.toNat)) (supply.nextChannel + 1)
          (Channel.create label.linkBufferSize.toNat) ∧
      supply'.nextChannel = supply.nextChannel + 2 ∧ supply'.drawn = supply.drawn + 6 ∧
      ∀ id, id ≠ uuids (supply.drawn + 2) → id ≠ uuids (supply.drawn + 3) →
        network.threadManager.messageBus.Unused id → manager.messageBus.Unused id := by
  obtain ⟨manager, supply', session1, session2, hpair, hmade1, hmade2, hsupply⟩ :=
    @newBgpSessionPair_ok forms uuids network supply label.sessionConfigs.1
      label.sessionConfigs.2 label.linkBufferSize.toNat hfresh
  rw [hbase] at hmade1 hmade2
  have hend1 : endsAt id1 (id1, id2, label) edges.length = [⟨edges.length, .first, label⟩] :=
    endsAt_endpoint hne .first
  have hend2 : endsAt id2 (id1, id2, label) edges.length = [⟨edges.length, .second, label⟩] :=
    endsAt_endpoint hne .second
  obtain ⟨router1', hattach1⟩ := hrouter1.attach_ok session1
  obtain ⟨router2', hattach2⟩ := hrouter2.attach_ok session2
  refine ⟨manager, supply', router1', router2', ?_, ?_, ?_, hsupply⟩
  · simp only [NetworkManager.createSessions, hpair, NetworkManager.getRouterPairMut, hlookup1,
      hlookup2, hne, if_false, hattach1, hattach2]
  · intro vertex hrouter
    exact hrouter.attach hend1 hmade1 hattach1
  · intro vertex hrouter
    exact hrouter.attach hend2 hmade2 hattach2

end Steps

/-- What the loops of `from_topology` have made of a part of the topology. -/
structure Built (uuids : ℕ → Uuid) (start : Supply) (stop : ℕ)
    (vertices : List (Uuid × NetworkTopologyVertex))
    (edges : List (Uuid × Uuid × NetworkTopologyEdge))
    (state : NetworkManager × Supply) : Prop where
  keys : ∀ id, id ∈ state.1.routers ↔ id ∈ vertices.map Prod.fst
  routers : ∀ id vertex, (id, vertex) ∈ vertices → ∃ router,
    state.1.routers.lookup id = some router ∧ RouterFor start.nextChannel edges id vertex router
  drawn : state.2.drawn = start.drawn + 2 * vertices.length + 6 * edges.length
  nextChannel : state.2.nextChannel = start.nextChannel + 2 * edges.length
  links : ∀ k edge, edges[k]? = some edge → ∀ channel : ℕ,
    channel = start.nextChannel + 2 * k ∨ channel = start.nextChannel + 2 * k + 1 →
      state.2.links channel = Channel.create edge.2.2.linkBufferSize.toNat
  unused : ∀ n, state.2.drawn ≤ n → n < stop → state.1.threadManager.messageBus.Unused (uuids n)

section Building
variable {forms : TextForms} {uuids : ℕ → Uuid} {start : Supply} {stop : ℕ}
  {vertices : List (Uuid × NetworkTopologyVertex)}
  {edges : List (Uuid × Uuid × NetworkTopologyEdge)} {state : NetworkManager × Supply}

/-- A new network is what has been made of no vertices and no edges. -/
theorem built_new {manager : ThreadManager}
    (hunused : ∀ n, start.drawn ≤ n → n < stop → manager.messageBus.Unused (uuids n)) :
    Built uuids start stop [] [] (NetworkManager.new manager start) := by
  refine ⟨?_, ?_, rfl, rfl, ?_, hunused⟩
  · intro id
    simp [NetworkManager.new, Finmap.notMem_empty]
  · intro id vertex hmem
    cases hmem
  · intro k edge hedge
    cases hedge

theorem Built.createRouter (h : Built uuids start stop vertices [] state)
    (vertex : Uuid × NetworkTopologyVertex) (hnew : vertex.1 ∉ vertices.map Prod.fst) :
    ∃ state', NetworkManager.createRouter uuids state vertex = .ok state' ∧
      Built uuids start stop (vertices ++ [vertex]) [] state' := by
  obtain ⟨network, supply⟩ := state
  obtain ⟨id, vertex⟩ := vertex
  have hfree : id ∉ network.routers := fun hmem => hnew ((h.keys id).mp hmem)
  obtain ⟨router, supply', hcreate, hrouter, hlinks, hnext, hdrawn⟩ :=
    @createRouter_ok uuids network supply start.nextChannel id vertex hfree
  refine ⟨_, hcreate, ?_, ?_, ?_, ?_, ?_, ?_⟩
  · intro other
    show other ∈ Finmap.insert id router network.routers ↔ _
    rw [Finmap.mem_insert, List.map_append, List.mem_append, h.keys other, or_comm]
    simp
  · intro other value hmem
    show ∃ router', Finmap.lookup other (Finmap.insert id router network.routers) = _ ∧ _
    rcases List.mem_append.mp hmem with hold | hlast
    · have hne : other ≠ id := by
        rintro rfl
        exact hnew (List.mem_map.mpr ⟨_, hold, rfl⟩)
      rw [Finmap.lookup_insert_of_ne _ hne]
      exact h.routers other value hold
    · obtain ⟨rfl, rfl⟩ := Prod.mk.inj (List.mem_singleton.mp hlast)
      exact ⟨router, Finmap.lookup_insert _, hrouter⟩
  · have hold := h.drawn
    simp only [List.length_append, List.length_singleton] at hold ⊢
    omega
  · exact hnext.trans h.nextChannel
  · intro k edge hedge
    simp at hedge
  · intro n hle hlt
    have hold := h.unused n
    exact hold (by simp only at hle ⊢; omega) hlt

/-- The channels of the earlier edges stay as they are, and the new edge has two new ones. -/
theorem Built.links_concat (h : Built uuids start stop vertices edges state)
    (edge : Uuid × Uuid × NetworkTopologyEdge) (k : ℕ)
    (other : Uuid × Uuid × NetworkTopologyEdge) (hother : (edges ++ [edge])[k]? = some other)
    (channel : ℕ) (hchannel : channel = start.nextChannel + 2 * k ∨
      channel = start.nextChannel + 2 * k + 1) :
    Function.update (Function.update state.2.links state.2.nextChannel
        (Channel.create edge.2.2.linkBufferSize.toNat)) (state.2.nextChannel + 1)
          (Channel.create edge.2.2.linkBufferSize.toNat) channel =
      Channel.create other.2.2.linkBufferSize.toNat := by
  have hnext := h.nextChannel
  obtain ⟨hlt, -⟩ := List.getElem?_eq_some_iff.mp hother
  rw [List.length_append, List.length_singleton] at hlt
  rcases Nat.lt_or_eq_of_le (show k ≤ edges.length by omega) with hold | rfl
  · rw [List.getElem?_append_left hold] at hother
    have hfirst : channel ≠ state.2.nextChannel := by omega
    have hsecond : channel ≠ state.2.nextChannel + 1 := by omega
    rw [Function.update_of_ne hsecond, Function.update_of_ne hfirst]
    exact h.links k other hother channel hchannel
  · rw [List.getElem?_concat_length, Option.some.injEq] at hother
    subst hother
    rw [← hnext] at hchannel
    rcases hchannel with rfl | rfl
    · have hother : state.2.nextChannel ≠ state.2.nextChannel + 1 := by omega
      rw [Function.update_of_ne hother, Function.update_self]
    · rw [Function.update_self]

/-- An edge between two known vertices joins their routers. -/
theorem Built.createSessions (h : Built uuids start stop vertices edges state)
    (edge : Uuid × Uuid × NetworkTopologyEdge) (hne : edge.1 ≠ edge.2.1)
    (hfirst : edge.1 ∈ vertices.map Prod.fst) (hsecond : edge.2.1 ∈ vertices.map Prod.fst)
    (hstop : state.2.drawn + 6 ≤ stop)
    (hdistinct : ∀ m n, start.drawn ≤ m → m < n → n < stop → uuids m ≠ uuids n) :
    ∃ state', NetworkManager.createSessions forms uuids state edge = .ok state' ∧
      Built uuids start stop vertices (edges ++ [edge]) state' := by
  obtain ⟨network, supply⟩ := state
  obtain ⟨id1, id2, label⟩ := edge
  obtain ⟨vertex1, hvertex1⟩ : ∃ vertex, (id1, vertex) ∈ vertices := by simpa using hfirst
  obtain ⟨vertex2, hvertex2⟩ : ∃ vertex, (id2, vertex) ∈ vertices := by simpa using hsecond
  obtain ⟨router1, hlookup1, hrouter1⟩ := h.routers _ _ hvertex1
  obtain ⟨router2, hlookup2, hrouter2⟩ := h.routers _ _ hvertex2
  have hdrawn := h.drawn
  have hnext := h.nextChannel
  simp only at hne hdrawn hnext hstop hlookup1 hlookup2
  have hfresh : Fresh uuids network.threadManager.messageBus supply.drawn 4 :=
    ⟨fun m n hle hlt hn => hdistinct m n (by omega) hlt (by omega),
      fun n hle hlt => h.unused n hle (by omega)⟩
  obtain ⟨manager, supply', router1', router2', hcreate, hattached1, hattached2, hlinks, hnext',
    hdrawn', hkept⟩ := @createSessions_ok forms uuids network supply _ _ _ _ _ _ _ _ label hne
      hlookup1 hlookup2 hrouter1 hrouter2 hnext hfresh
  refine ⟨_, hcreate, ?_, ?_, ?_, ?_, ?_, ?_⟩
  · intro id
    simp only [Finmap.mem_insert, h.keys id]
    constructor
    · intro hmem
      rcases hmem with rfl | rfl | hold
      · exact hsecond
      · exact hfirst
      · exact hold
    · exact fun hold => Or.inr (Or.inr hold)
  · intro id vertex hmem
    obtain ⟨router, hlookup, hrouter⟩ := h.routers id vertex hmem
    show ∃ router', Finmap.lookup id
      (Finmap.insert id2 router2' (Finmap.insert id1 router1' network.routers)) = _ ∧ _
    by_cases heq2 : id = id2
    · subst heq2
      obtain rfl := Option.some.inj (hlookup.symm.trans hlookup2)
      exact ⟨router2', Finmap.lookup_insert _, hattached2 vertex hrouter⟩
    · rw [Finmap.lookup_insert_of_ne _ heq2]
      by_cases heq1 : id = id1
      · subst heq1
        obtain rfl := Option.some.inj (hlookup.symm.trans hlookup1)
        exact ⟨router1', Finmap.lookup_insert _, hattached1 vertex hrouter⟩
      · rw [Finmap.lookup_insert_of_ne _ heq1]
        exact ⟨router, hlookup, hrouter.of_ne (Ne.symm heq1) (Ne.symm heq2)⟩
  · simp only [List.length_append, List.length_singleton]
    omega
  · simp only [List.length_append, List.length_singleton]
    omega
  · intro k other hother channel hchannel
    show supply'.links channel = _
    rw [hlinks]
    exact h.links_concat _ k other hother channel hchannel
  · intro n hle hlt
    show manager.messageBus.Unused (uuids n)
    simp only at hle
    have hne2 := hdistinct (supply.drawn + 2) n (by omega) (by omega) hlt
    have hne3 := hdistinct (supply.drawn + 3) n (by omega) (by omega) hlt
    exact hkept _ hne2.symm hne3.symm (h.unused n (show supply.drawn ≤ n by omega) hlt)

/-- The first loop makes all routers. -/
theorem Built.createRouters (h : Built uuids start stop [] [] state)
    (hdistinct : (vertices.map Prod.fst).Nodup) :
    ∃ state', Runs.run (NetworkManager.createRouter uuids) state vertices = .ok state' ∧
      Built uuids start stop vertices [] state' := by
  let Inv := fun (state : NetworkManager × Supply) (rest : List (Uuid × NetworkTopologyVertex)) =>
    ∃ done, done ++ rest = vertices ∧ Built uuids start stop done [] state
  have hstep : ∀ state vertex rest, Inv state (vertex :: rest) →
      ∃ state', NetworkManager.createRouter uuids state vertex = .ok state' ∧ Inv state' rest := by
    intro state vertex rest hinv
    obtain ⟨done, rfl, hbuilt⟩ := hinv
    rw [List.map_append, List.map_cons, List.nodup_middle] at hdistinct
    have hnew : vertex.1 ∉ done.map Prod.fst := by
      intro hmem
      exact hdistinct.notMem (List.mem_append_left _ hmem)
    obtain ⟨state', hcreate, hbuilt'⟩ := hbuilt.createRouter vertex hnew
    exact ⟨state', hcreate, done ++ [vertex], by simp, hbuilt'⟩
  obtain ⟨state', hrun, done, hdone, hbuilt⟩ := Runs.run_reaches Inv hstep ⟨[], rfl, h⟩
  rw [List.append_nil] at hdone
  exact ⟨state', hrun, hdone ▸ hbuilt⟩

/-- The second loop makes and attaches all sessions. -/
theorem Built.createAllSessions (h : Built uuids start stop vertices [] state)
    (hends : ∀ edge ∈ edges, edge.1 ∈ vertices.map Prod.fst ∧ edge.2.1 ∈ vertices.map Prod.fst)
    (hloops : ∀ edge ∈ edges, edge.1 ≠ edge.2.1)
    (hstop : start.drawn + (2 * vertices.length + 6 * edges.length) ≤ stop)
    (hdistinct : ∀ m n, start.drawn ≤ m → m < n → n < stop → uuids m ≠ uuids n) :
    ∃ state', Runs.run (NetworkManager.createSessions forms uuids) state edges = .ok state' ∧
      Built uuids start stop vertices edges state' := by
  let Inv := fun (state : NetworkManager × Supply)
      (rest : List (Uuid × Uuid × NetworkTopologyEdge)) =>
    ∃ done, done ++ rest = edges ∧ Built uuids start stop vertices done state
  have hstep : ∀ state edge rest, Inv state (edge :: rest) →
      ∃ state', NetworkManager.createSessions forms uuids state edge = .ok state' ∧
        Inv state' rest := by
    intro state edge rest hinv
    obtain ⟨done, rfl, hbuilt⟩ := hinv
    have hmem : edge ∈ done ++ edge :: rest := by simp
    obtain ⟨hfirst, hsecond⟩ := hends edge hmem
    have hdrawn := hbuilt.drawn
    rw [List.length_append, List.length_cons] at hstop
    obtain ⟨state', hcreate, hbuilt'⟩ := @Built.createSessions forms _ _ _ _ _ _ hbuilt edge
      (hloops edge hmem) hfirst hsecond (by omega) hdistinct
    exact ⟨state', hcreate, done ++ [edge], by simp, hbuilt'⟩
  obtain ⟨state', hrun, done, hdone, hbuilt⟩ := Runs.run_reaches Inv hstep ⟨[], rfl, h⟩
  rw [List.append_nil] at hdone
  exact ⟨state', hrun, hdone ▸ hbuilt⟩

theorem built_fromTopology {topology : NetworkTopology} {manager : ThreadManager}
    (htopology : topology.WellFormed) (hloops : ∀ edge ∈ topology.edges, edge.1 ≠ edge.2.1)
    (hfresh : Fresh uuids manager.messageBus start.drawn
      (2 * topology.vertices.length + 6 * topology.edges.length)) :
    ∃ state stop, NetworkManager.fromTopology forms uuids topology manager start = .ok state ∧
      Built uuids start stop topology.vertices topology.edges state := by
  let stop := start.drawn + (2 * topology.vertices.length + 6 * topology.edges.length)
  obtain ⟨created, hcreated, hrouters⟩ :=
    (@built_new uuids start stop manager hfresh.unused).createRouters htopology.distinct
  obtain ⟨joined, hjoined, hsessions⟩ := @Built.createAllSessions forms _ _ _ _ _ _ hrouters
    htopology.ends hloops (Nat.le_refl stop) hfresh.distinct
  refine ⟨joined, stop, ?_, hsessions⟩
  simp only [NetworkManager.fromTopology, hcreated, hjoined]

end Building

end NetfabricBgp.TopologyWirings
