import NetfabricBgp.TopologyWirings

/-!
How the construction of a network from a topology can fail. The vertices are distinct and
the ends of all edges are known, so no router is missing or made twice and each has its
process. An edge that joins a vertex to itself asks for one router twice, and that panics.
-/
namespace NetfabricBgp.TopologyFailures

open RouterMasks Advertisements Sessions Supplies MessageBuses Topologies Networks
  TopologyWirings

/-- Panics, and errors about routers and processes. -/
def Structural : Failure → Prop
  | .panicked _ => True
  | .returned (.RouterNotFound _) => True
  | .returned (.RouterAlreadyExists _) => True
  | .returned (.RouterError _) => True
  | .returned _ => False

section Loops
variable {forms : TextForms} {uuids : ℕ → Uuid} {start : Supply} {stop : ℕ}
  {vertices : List (Uuid × NetworkTopologyVertex)}
  {edges : List (Uuid × Uuid × NetworkTopologyEdge)} {state : NetworkManager × Supply}

/-- An edge from a known vertex to itself asks for its router twice. -/
theorem createSessions_of_loop (h : Built uuids start stop vertices edges state)
    (edge : Uuid × Uuid × NetworkTopologyEdge) (hloop : edge.1 = edge.2.1)
    (hend : edge.1 ∈ vertices.map Prod.fst) (hstop : state.2.drawn + 6 ≤ stop)
    (hdistinct : ∀ m n, start.drawn ≤ m → m < n → n < stop → uuids m ≠ uuids n) :
    NetworkManager.createSessions forms uuids state edge =
      .error (.panicked "duplicate keys found") := by
  obtain ⟨network, supply⟩ := state
  obtain ⟨id, id2, label⟩ := edge
  obtain rfl : id = id2 := hloop
  obtain ⟨vertex, hvertex⟩ : ∃ vertex, (id, vertex) ∈ vertices := by simpa using hend
  obtain ⟨router, hlookup, -⟩ := h.routers _ _ hvertex
  have hdrawn := h.drawn
  simp only at hdrawn hstop hlookup
  have hfresh : Fresh uuids network.threadManager.messageBus supply.drawn 4 :=
    ⟨fun m n hle hlt hn => hdistinct m n (by omega) hlt (by omega),
      fun n hle hlt => h.unused n hle (by omega)⟩
  obtain ⟨manager, supply', session1, session2, hpair, -⟩ :=
    @newBgpSessionPair_ok forms uuids network supply label.sessionConfigs.1
      label.sessionConfigs.2 label.linkBufferSize.toNat hfresh
  simp only [NetworkManager.createSessions, hpair, NetworkManager.getRouterPairMut, hlookup,
    if_true]

theorem exists_first_loop {edges : List (Uuid × Uuid × NetworkTopologyEdge)}
    (h : ∃ edge ∈ edges, edge.1 = edge.2.1) :
    ∃ before edge after, edges = before ++ edge :: after ∧ edge.1 = edge.2.1 ∧
      ∀ other ∈ before, other.1 ≠ other.2.1 := by
  obtain ⟨looped, hmem, hlooped⟩ := h
  cases hfind : edges.find? (fun edge => decide (edge.1 = edge.2.1)) with
  | none =>
    have hnone := List.find?_eq_none.mp hfind looped hmem
    exact absurd (decide_eq_true hlooped) hnone
  | some edge =>
    obtain ⟨hedge, before, after, hedges, hbefore⟩ := List.find?_eq_some_iff_append.mp hfind
    refine ⟨before, edge, after, hedges, of_decide_eq_true hedge, ?_⟩
    intro other hother
    simpa using hbefore other hother

/-- The first edge of a topology that joins a vertex to itself ends the construction. -/
theorem fromTopology_of_loop {topology : NetworkTopology} {manager : ThreadManager}
    (htopology : topology.WellFormed) (hloop : ∃ edge ∈ topology.edges, edge.1 = edge.2.1)
    (hfresh : Fresh uuids manager.messageBus start.drawn
      (2 * topology.vertices.length + 6 * topology.edges.length)) :
    NetworkManager.fromTopology forms uuids topology manager start =
      .error (.panicked "duplicate keys found") := by
  obtain ⟨before, edge, after, hedges, hedge, hbefore⟩ := exists_first_loop hloop
  let stop := start.drawn + (2 * topology.vertices.length + 6 * topology.edges.length)
  have hlength : topology.edges.length = before.length + (after.length + 1) := by
    rw [hedges, List.length_append, List.length_cons]
  obtain ⟨created, hcreated, hrouters⟩ :=
    (@built_new uuids start stop manager hfresh.unused).createRouters htopology.distinct
  have hends : ∀ other ∈ before, other.1 ∈ topology.vertices.map Prod.fst ∧
      other.2.1 ∈ topology.vertices.map Prod.fst := by
    intro other hother
    refine htopology.ends other ?_
    rw [hedges]
    exact List.mem_append_left _ hother
  have hroom : start.drawn + (2 * topology.vertices.length + 6 * before.length) ≤ stop := by
    show _ ≤ start.drawn + _
    omega
  obtain ⟨joined, hjoined, hbuilt⟩ := @Built.createAllSessions forms _ _ _ _ _ _ hrouters
    hends hbefore hroom hfresh.distinct
  have hend : edge.1 ∈ topology.vertices.map Prod.fst := by
    refine (htopology.ends edge ?_).1
    rw [hedges]
    simp
  have hdrawn := hbuilt.drawn
  have hpanic : NetworkManager.createSessions forms uuids joined edge =
      .error (.panicked "duplicate keys found") := by
    refine createSessions_of_loop hbuilt edge hedge hend ?_ hfresh.distinct
    show _ ≤ start.drawn + _
    omega
  simp only [NetworkManager.fromTopology, hcreated, hedges]
  exact Runs.run_append_cons_error hjoined hpanic after

end Loops

/-- Whatever the operations that built the topology, the construction of the network is free
of panics and of errors about routers exactly when no edge joins a vertex to itself. -/
theorem fromTopology_sound_iff (forms : TextForms) (uuids : ℕ → Uuid)
    (ops : List NetworkTopology.Op) (threadManager : ThreadManager) (supply : Supply)
    (hfresh : Fresh uuids threadManager.messageBus supply.drawn
      (2 * (NetworkTopology.build ops).vertices.length +
        6 * (NetworkTopology.build ops).edges.length)) :
    (∀ failure, NetworkManager.fromTopology forms uuids (NetworkTopology.build ops)
        threadManager supply = .error failure → ¬ Structural failure) ↔
      ∀ edge ∈ (NetworkTopology.build ops).edges, edge.1 ≠ edge.2.1 := by
  have htopology := NetworkTopology.wellFormed_build ops
  constructor
  · intro hsound edge hedge hloop
    exact hsound _ (fromTopology_of_loop htopology ⟨edge, hedge, hloop⟩ hfresh) trivial
  · intro hloops failure hfailure
    obtain ⟨state, stop, hok, -⟩ := @built_fromTopology forms _ _ _ _ htopology hloops hfresh
    rw [hok] at hfailure
    cases hfailure

/-- A connection of a new vertex to itself. -/
def loopEdge : List NetworkTopology.Op :=
  [.addConnection 1 1 (SessionConfig.default, SessionConfig.default) 10]

theorem fromTopology_sound_iff_loop :
    (∀ failure, NetworkManager.fromTopology TextForms.sample (fun n => BitVec.ofNat 128 n)
        (NetworkTopology.build loopEdge) ThreadManager.new Supply.initial = .error failure →
        ¬ Structural failure) ↔
      ∀ edge ∈ (NetworkTopology.build loopEdge).edges, edge.1 ≠ edge.2.1 := by
  refine fromTopology_sound_iff TextForms.sample _ loopEdge ThreadManager.new Supply.initial ?_
  exact fresh_ofNat (by decide)

/-- The connection makes the construction panic. -/
theorem fromTopology_panics_loop :
    NetworkManager.fromTopology TextForms.sample (fun n => BitVec.ofNat 128 n)
        (NetworkTopology.build loopEdge) ThreadManager.new Supply.initial =
      .error (.panicked "duplicate keys found") ∧
    ¬ ∀ failure, NetworkManager.fromTopology TextForms.sample (fun n => BitVec.ofNat 128 n)
        (NetworkTopology.build loopEdge) ThreadManager.new Supply.initial = .error failure →
        ¬ Structural failure := by
  have hpanics := @fromTopology_of_loop TextForms.sample (fun n => BitVec.ofNat 128 n)
    Supply.initial _ ThreadManager.new (NetworkTopology.wellFormed_build loopEdge)
    (by decide) (fresh_ofNat (by decide))
  exact ⟨hpanics, fun hsound => hsound _ hpanics trivial⟩

end NetfabricBgp.TopologyFailures
