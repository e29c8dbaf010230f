import NetfabricBgp.RibFiles
import NetfabricBgp.RouterLookups

/-!
What the routers read after a RIB was saved to a file and loaded again. The table is loaded
with the masks of its entries, but not the routers these belong to, and bits are handed out
afresh. So nobody reads an imported route at first, and the next router to register reads
the routes of the first router of the saved RIB. Views are kept only when no route was stored.
-/
namespace NetfabricBgp.ImportedViews

open BitPrefix Addresses NetworkTables Routes RouterMasks RibEntries Ribs RibInvariants
  RouterLookups RibFiles

/-- The loaded RIB shows every router the routes that the saved RIB showed it, and shows none
to a router that never inserted one, whichever routers have registered since. -/
structure KeepsViews (ops : List BgpRib.Op) (rib rib2 : BgpRib) : Prop where
  same : ∀ (ids : List Uuid) (rib3 : BgpRib), rib2.run (ids.map .registerRouter) = .ok rib3 →
    ∀ address router,
      rib3.getRoutesForRouter address router = rib.getRoutesForRouter address router
  unseen : ∀ (ids : List Uuid) (rib3 : BgpRib), rib2.run (ids.map .registerRouter) = .ok rib3 →
    ∀ router, (∀ route, .insertRoute route router ∉ ops) →
      ∀ address, rib3.getRoutesForRouter address router = []

section Views
variable {rib rib' : BgpRib}

theorem stored_of_treebitmap (h : rib'.treebitmap = rib.treebitmap) (network : IpNetwork) :
    rib'.stored network = rib.stored network := by
  rw [BgpRib.stored, BgpRib.stored, h]

theorem treebitmap_run_register {ids : List Uuid}
    (h : rib.run (ids.map .registerRouter) = .ok rib') : rib'.treebitmap = rib.treebitmap := by
  induction ids generalizing rib with
  | nil =>
    obtain rfl : rib = rib' := Except.ok.inj h
    rfl
  | cons id rest ih =>
    obtain ⟨m, hstep, hrest⟩ := Runs.run_cons_ok.mp h
    obtain ⟨masks, mask, -, rfl⟩ := BgpRib.step_registerRouter_ok.mp hstep
    have htable := ih hrest
    exact htable

/-- Without a stored route nobody reads one. -/
theorem getRoutesForRouter_of_unstored (h : ∀ network, rib.stored network = [])
    (address : IpAddr) (router : Uuid) : rib.getRoutesForRouter address router = [] := by
  cases hmatch : rib.treebitmap.longestMatch address with
  | none => exact (getRoutesForRouter_none router hmatch).1
  | some hit =>
    obtain ⟨network, entry⟩ := hit
    obtain ⟨hentry, -, -⟩ := IpNetworkTable.longestMatch_some hmatch
    have hall : entry.getAll = [] := by
      have hstored := h network
      rwa [BgpRib.stored, hentry] at hstored
    have hroutes : rib.getRoutesForRouter address router =
        entry.getWithMask (rib.routerMaskMap.tryGet router) := by
      simp only [BgpRib.getRoutesForRouter, hmatch]
    rw [hroutes]
    apply List.eq_nil_iff_forall_not_mem.mpr
    intro route hroute
    have hmem := BgpRibEntry.getWithMask_subset_getAll hroute
    rw [hall] at hmem
    cases hmem

/-- A stored route is read by some router at some address. -/
theorem exists_view (hw : WellFormed rib) {network : IpNetwork} (h : rib.stored network ≠ []) :
    ∃ address router, rib.getRoutesForRouter address router ≠ [] := by
  obtain ⟨address, hcontains⟩ := network.exists_contains
  cases hmatch : rib.treebitmap.longestMatch address with
  | none =>
    have hnone := IpNetworkTable.longestMatch_none hmatch hcontains
    rw [BgpRib.stored, hnone] at h
    exact absurd rfl h
  | some hit =>
    obtain ⟨covering, entry⟩ := hit
    obtain ⟨-, -, hstored, -⟩ := getRoutesForRouter_some 0 hmatch
    obtain ⟨router, hheld⟩ := exists_holder hw hstored
    refine ⟨address, router, ?_⟩
    rw [(getRoutesForRouter_some router hmatch).1]
    exact hheld

/-- While no router is registered, nobody reads anything. -/
theorem getRoutesForRouter_of_new (h : rib.routerMaskMap = RouterMaskMap.new) (address : IpAddr)
    (router : Uuid) : rib.getRoutesForRouter address router = [] := by
  have hmask : rib.routerMaskMap.tryGet router = RouterMask.default := by
    rw [h]
    exact RouterMaskMap.tryGet_of_none RouterMaskMap.wellFormed_new rfl
  unfold BgpRib.getRoutesForRouter
  rw [hmask]
  cases rib.treebitmap.longestMatch address with
  | none => rfl
  | some hit => exact hit.2.getWithMask_default

theorem keepsViews_of_unstored {ops : List BgpRib.Op} (h : ∀ network, rib.stored network = [])
    (htable : rib'.treebitmap = rib.treebitmap) : KeepsViews ops rib rib' := by
  have hnone : ∀ (ids : List Uuid) (rib3 : BgpRib), rib'.run (ids.map .registerRouter) = .ok rib3 →
      ∀ address router, rib3.getRoutesForRouter address router = [] := by
    intro ids rib3 hrun
    apply getRoutesForRouter_of_unstored
    intro network
    rw [stored_of_treebitmap ((treebitmap_run_register hrun).trans htable)]
    exact h network
  constructor
  · intro ids rib3 hrun address router
    rw [hnone ids rib3 hrun, getRoutesForRouter_of_unstored h]
  · intro ids rib3 hrun router _ address
    exact hnone ids rib3 hrun address router

theorem unstored_of_keepsViews {ops : List BgpRib.Op} (hw : WellFormed rib)
    (hmasks : rib'.routerMaskMap = RouterMaskMap.new) (h : KeepsViews ops rib rib')
    (network : IpNetwork) : rib.stored network = [] := by
  by_contra hstored
  obtain ⟨address, router, hview⟩ := exists_view hw hstored
  apply hview
  rw [← h.same [] rib' rfl address router]
  exact getRoutesForRouter_of_new hmasks address router

end Views

/-- The route of the sample file. -/
def savedRoute : Route := .sample 0x0A000001#32 8 "10.0.0.1" [65001]

/-- Router 1 has stored the route. -/
def savedRib : BgpRib where
  routerMaskMap := ⟨RouterMask.default, .ofBit 0, (∅ : Finmap _).insert 1 (.ofBit 0)⟩
  treebitmap := (∅ : IpNetworkTable _).insert savedRoute.pfx ⟨[(.ofBit 0, savedRoute)]⟩

def savedIteration : savedRib.treebitmap.Iteration where
  list := (∅ : AList _).insert savedRoute.pfx ⟨[(.ofBit 0, savedRoute)]⟩
  lists := rfl

theorem exactMatch_saved (network : IpNetwork) :
    savedRib.treebitmap.exactMatch network =
      if network = savedRoute.pfx then some ⟨[(.ofBit 0, savedRoute)]⟩ else none :=
  IpNetworkTable.exactMatch_insert ∅ savedRoute.pfx network _

theorem mem_stored_saved {network : IpNetwork} {route : Route}
    (h : route ∈ savedRib.stored network) : route = savedRoute := by
  rw [BgpRib.stored, exactMatch_saved] at h
  by_cases hn : network = savedRoute.pfx
  · rw [if_pos hn] at h
    exact List.mem_singleton.mp h
  · rw [if_neg hn] at h
    cases h

theorem readsBack_saved : ReadsBack FileForms.sample savedRib savedIteration := by
  have hpfx : FileForms.sample.fromStr (FileForms.sample.networkToString savedRoute.pfx) =
      some savedRoute.pfx := by decide
  have hdoc : (routesCodec FileForms.sample).encode
      (exportedRoutes FileForms.sample savedIteration) = sampleDocument := rfl
  have htext : FileForms.sample.fromReader (FileForms.sample.toWriterPretty sampleDocument) =
      some sampleDocument := by
    simp only [FileForms.sample, pretty_sampleDocument, if_true]
  refine ⟨?_, ?_, ?_, hdoc ▸ htext⟩
  · intro network hstored
    rw [exactMatch_saved] at hstored
    by_cases h : network = savedRoute.pfx
    · rw [h]
      exact hpfx
    · rw [if_neg h] at hstored
      cases hstored
  · intro network route hmem
    rw [mem_stored_saved hmem]
    decide
  · intro network route hmem
    rw [mem_stored_saved hmem]
    exact hpfx

/-- A saved RIB is loaded again, and the views are kept exactly when no route is stored. -/
theorem keepsViews_iff_unstored {forms : FileForms} {ops : List BgpRib.Op} {rib : BgpRib}
    (h : BgpRib.new.run ops = .ok rib) {iteration : rib.treebitmap.Iteration}
    (hreads : ReadsBack forms rib iteration) :
    ∃ rib2, importFromFile forms (exportToFile forms rib iteration) = some rib2 ∧
      (KeepsViews ops rib rib2 ↔ ∀ network, rib.stored network = []) := by
  refine ⟨_, importFromFile_exportToFile hreads, ?_⟩
  constructor
  · exact unstored_of_keepsViews (wellFormed_run wellFormed_new h) rfl
  · intro hstored
    exact keepsViews_of_unstored hstored rfl

theorem keepsViews_iff_unstored_saved :
    BgpRib.new.run [.insertRoute savedRoute 1] = .ok savedRib ∧
      ∃ rib2, importFromFile .sample (exportToFile .sample savedRib savedIteration) = some rib2 ∧
        (KeepsViews [.insertRoute savedRoute 1] savedRib rib2 ↔
          ∀ network, savedRib.stored network = []) :=
  ⟨rfl, keepsViews_iff_unstored (show BgpRib.new.run _ = .ok savedRib from rfl) readsBack_saved⟩

/-- After loading, router 2 registers and reads the route of router 1, which reads nothing. -/
theorem not_keepsViews_saved :
    BgpRib.new.run [.insertRoute savedRoute 1] = .ok savedRib ∧
      ReadsBack .sample savedRib savedIteration ∧
        ∃ rib2 rib3, importFromFile .sample (exportToFile .sample savedRib savedIteration) =
            some rib2 ∧ rib2.run [.registerRouter 2] = .ok rib3 ∧
          savedRib.getRoutesForRouter (.V4 0x0A010203#32) 1 = [savedRoute] ∧
          rib3.getRoutesForRouter (.V4 0x0A010203#32) 1 = [] ∧
          rib3.getRoutesForRouter (.V4 0x0A010203#32) 2 = [savedRoute] ∧
          ¬ KeepsViews [.insertRoute savedRoute 1] savedRib rib2 := by
  refine ⟨rfl, readsBack_saved, _, _, importFromFile_exportToFile readsBack_saved, rfl,
    by decide, by decide, by decide, ?_⟩
  intro h
  have hsame := h.same [2] _ rfl (.V4 0x0A010203#32) 1
  exact absurd hsame (by decide)

/-- The loaded RIB has the prefixes of the saved one, and at each of them the same masks with
the same routes in the same order. -/
theorem imported_same_table {forms : FileForms} {rib : BgpRib}
    {iteration : rib.treebitmap.Iteration} (h : ReadsBack forms rib iteration) :
    ∃ imported, importFromFile forms (exportToFile forms rib iteration) = some imported ∧
      imported.treebitmap.keys = rib.treebitmap.keys ∧
      ∀ network, (imported.treebitmap.exactMatch network).map BgpRibEntry.routes =
        (rib.treebitmap.exactMatch network).map BgpRibEntry.routes :=
  ⟨_, importFromFile_exportToFile h, rfl, fun _ => rfl⟩

theorem imported_same_table_saved :
    ∃ imported, importFromFile .sample (exportToFile .sample savedRib savedIteration) =
        some imported ∧
      imported.treebitmap.keys = savedRib.treebitmap.keys ∧
      ∀ network, (imported.treebitmap.exactMatch network).map BgpRibEntry.routes =
        (savedRib.treebitmap.exactMatch network).map BgpRibEntry.routes :=
  imported_same_table readsBack_saved

end NetfabricBgp.ImportedViews
