import NetfabricBgp.Separations
import NetfabricBgp.TopologyOrigins

/-!
Regions of a topology between which there are no edges. Their routers have no channel and no RIB
in common, so neither can what happens in one region be told from the other, whatever the
order of all steps.
-/
namespace NetfabricBgp.TopologyRegions

open RouterMasks Ribs Advertisements Channels Sessions Supplies MessageBuses Topologies Routers
  Networks Incidences TopologyWirings JoinedSessions ProcessThreads ThreadSteps ThreadCycles
  TopologyThreads Flows TopologyOrigins Separations

/-- No edge leads out of these routers. -/
def Component (topology : NetworkTopology) (routers : Uuid → Bool) : Prop :=
  ∀ edge ∈ topology.edges, routers edge.1 = routers edge.2.1

/-- The threads of some routers, the channels of their edges, and their RIBs. -/
noncomputable def regionOf (topology : NetworkTopology) (state : NetworkManager × Supply) (base : ℕ)
    (routers : Uuid → Bool) : Region (Uuid × ℕ) where
  threads := fun place => routers place.1
  channels := fun c => topology.edges[(c - base) / 2]?.any (fun edge => routers edge.1)
  ribs := fun rib => open Classical in decide (∃ place hosted,
    hostedAt state.1 place = some hosted ∧ hosted.rib = rib ∧ routers place.1 = true)

theorem ribs_regionOf {topology : NetworkTopology} {state : NetworkManager × Supply} {base : ℕ}
    {routers : Uuid → Bool} {rib : RibId} :
    (regionOf topology state base routers).ribs rib = true ↔
      ∃ place hosted, hostedAt state.1 place = some hosted ∧ hosted.rib = rib ∧
        routers place.1 = true := by
  simp [regionOf]

section Edges
variable {uuids : ℕ → Uuid} {start : Supply} {stop : ℕ} {topology : NetworkTopology}
  {state : NetworkManager × Supply} {routers : Uuid → Bool}

theorem channels_incidence (hloops : ∀ edge ∈ topology.edges, edge.1 ≠ edge.2.1)
    (hcomponent : Component topology routers) {id : Uuid}
    {incidence : Incidence NetworkTopologyEdge} (hmem : incidence ∈ incidences id topology.edges)
    {c base : ℕ} (hc : c = inChannel base incidence ∨ c = outChannel base incidence) :
    (regionOf topology state base routers).channels c = routers id := by
  obtain ⟨p, hp⟩ := List.mem_iff_getElem?.mp hmem
  obtain ⟨edge, hedge, hend, -⟩ := eq_position hloops hp
  have hindex : (c - base) / 2 = incidence.index := by
    unfold inChannel outChannel at hc
    cases hside : incidence.side <;> simp only [hside] at hc <;> omega
  have hsame := hcomponent edge (List.mem_of_getElem? hedge)
  show topology.edges[(c - base) / 2]?.any _ = routers id
  rw [hindex, hedge, Option.any_some, ← hend]
  cases incidence.side with
  | first => rfl
  | second => exact hsame

/-- Routers without edges to others are a region of the network that is made. -/
theorem separate_regionOf (h : Built uuids start stop topology.vertices topology.edges state)
    (hhoused : Housed state) (hloops : ∀ edge ∈ topology.edges, edge.1 ≠ edge.2.1)
    (hcomponent : Component topology routers) :
    Separate (regionOf topology state start.nextChannel routers) (settings (threadsOf state)) := by
  refine ⟨?_, ?_⟩
  · intro place setting hsetting
    obtain ⟨self, hself, rfl⟩ := Option.map_eq_some_iff.mp hsetting
    obtain ⟨hosted, hhosted, rfl⟩ := thread_threadsOf hself
    rw [Bool.eq_iff_iff]
    refine ribs_regionOf.trans ?_
    constructor
    · intro hsome
      obtain ⟨place', hosted', hhosted', hrib, hrouter⟩ := hsome
      obtain rfl := hhoused.own place' place hosted' hosted hhosted' hhosted hrib
      exact hrouter
    · intro hrouter
      exact ⟨place, hosted, hhosted, rfl, hrouter⟩
  · intro place setting port c hsetting hport huses
    obtain ⟨-, incidence, hmem, hin, hout, -⟩ := incidence_of_port h hsetting hport
    refine channels_incidence hloops hcomponent hmem ?_
    rcases huses with huses | huses
    · exact Or.inl (Option.some.inj (huses.symm.trans hin))
    · exact Or.inr (Option.some.inj (huses.symm.trans hout))

end Edges

/-- In a network made from a topology without loops, routers without edges to the others do in
every run what they do when nothing else of it happens: their effects are the same, and so are
their threads and RIBs at the end. -/
theorem component_fromTopology (forms : TextForms) (uuids : ℕ → Uuid)
    (ops : List NetworkTopology.Op) (threadManager : ThreadManager) (supply : Supply)
    (hunwritten : ∀ rib, Unwritten (supply.ribs rib))
    (hloops : ∀ edge ∈ (NetworkTopology.build ops).edges, edge.1 ≠ edge.2.1)
    (hfresh : Fresh uuids threadManager.messageBus supply.drawn
      (2 * (NetworkTopology.build ops).vertices.length +
        6 * (NetworkTopology.build ops).edges.length))
    (routers : Uuid → Bool) (hcomponent : Component (NetworkTopology.build ops) routers) :
    ∃ state, NetworkManager.fromTopology forms uuids (NetworkTopology.build ops) threadManager
        supply = .ok state ∧
      ∃ region : Region (Uuid × ℕ), (∀ place, region.threads place = routers place.1) ∧
        Separate region (settings (threadsOf state)) ∧
        ∀ events state' history, run forms (threadsOf state) events = .ok (state', history) →
          ∃ alone, run forms (threadsOf state) (events.filter region.hasEvent) =
              .ok (alone, history.filter region.hasEntry) ∧
            ∀ place hosted, routers place.1 = true → hostedAt state.1 place = some hosted →
              alone.thread place = state'.thread place ∧
              alone.shared.ribs hosted.rib = state'.shared.ribs hosted.rib := by
  obtain ⟨state, stop, hfrom, hbuilt⟩ := @built_fromTopology forms uuids supply _ threadManager
    (NetworkTopology.wellFormed_build ops) hloops hfresh
  have hhoused := housed_fromTopology hunwritten hfrom
  have hseparate := separate_regionOf hbuilt hhoused hloops hcomponent
  refine ⟨state, hfrom, regionOf _ state supply.nextChannel routers, fun _ => rfl, hseparate, ?_⟩
  intro events state' history hrun
  have hagrees : Agrees (regionOf (NetworkTopology.build ops) state supply.nextChannel routers)
      (threadsOf state) (threadsOf state) := ⟨fun _ _ => rfl, fun _ _ => rfl, fun _ _ => rfl⟩
  obtain ⟨alone, halone, hend⟩ := run_region hseparate hagrees hrun
  refine ⟨alone, halone, ?_⟩
  intro place hosted hrouter hhosted
  exact ⟨hend.thread place hrouter,
    hend.rib hosted.rib (ribs_regionOf.mpr ⟨place, hosted, hhosted, rfl, hrouter⟩)⟩

/-- Two edges without a common router. -/
def disjointEdges : List NetworkTopology.Op :=
  [.addConnection 1 2 (SessionConfig.default, SessionConfig.default) 10,
    .addConnection 3 4 (SessionConfig.default, SessionConfig.default) 10]

theorem component_fromTopology_disjoint :
    ∃ state, NetworkManager.fromTopology .sample (fun n => BitVec.ofNat 128 n)
        (NetworkTopology.build disjointEdges) .new .initial = .ok state ∧
      ∃ region : Region (Uuid × ℕ), (∀ place, region.threads place = decide (place.1 ≤ 2)) ∧
        Separate region (settings (threadsOf state)) ∧
        ∀ events state' history, run .sample (threadsOf state) events = .ok (state', history) →
          ∃ alone, run .sample (threadsOf state) (events.filter region.hasEvent) =
              .ok (alone, history.filter region.hasEntry) ∧
            ∀ place hosted, decide (place.1 ≤ 2) = true → hostedAt state.1 place = some hosted →
              alone.thread place = state'.thread place ∧
              alone.shared.ribs hosted.rib = state'.shared.ribs hosted.rib := by
  have hcounts : 2 * (NetworkTopology.build disjointEdges).vertices.length +
      6 * (NetworkTopology.build disjointEdges).edges.length = 20 := by decide
  refine component_fromTopology .sample _ disjointEdges .new .initial (fun _ => unwritten_new)
    (by decide) ?_ (fun id => decide (id ≤ 2)) ?_
  · rw [hcounts]
    exact fresh_ofNat (by decide)
  · unfold Component
    decide

end NetfabricBgp.TopologyRegions
