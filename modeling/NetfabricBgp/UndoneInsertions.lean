import NetfabricBgp.InsertionReports

/-!
An insertion followed by the removal of the inserted route. A router that held no route of
the peer at the prefix gets the whole RIB back: the new tuple goes, or the bit that was
added to another router's tuple, and a prefix that was new is erased.
-/
namespace NetfabricBgp.UndoneInsertions

open Addresses NetworkTables Routes RouterMasks RibEntries Ribs RibInvariants

section Tables
variable {rib rib' : BgpRib}

/-- No empty entry is stored, so the entries determine what the table stores. -/
theorem exactMatch_eq_entryAt (hw : WellFormed rib) (network : IpNetwork) :
    rib.treebitmap.exactMatch network =
      if (rib.entryAt network).routes = [] then none else some (rib.entryAt network) := by
  unfold BgpRib.entryAt
  cases hentry : rib.treebitmap.exactMatch network with
  | none => simp [BgpRibEntry.new]
  | some entry =>
    have hne := hw.nonempty network entry hentry
    simp [hne]

/-- Two RIBs with the same masks and the same entries are the same. -/
theorem eq_of_entryAt (hw : WellFormed rib) (hw' : WellFormed rib')
    (hmasks : rib.routerMaskMap = rib'.routerMaskMap)
    (hentries : ∀ network, rib.entryAt network = rib'.entryAt network) : rib = rib' := by
  have htable : rib.treebitmap = rib'.treebitmap := by
    apply Finmap.ext_lookup
    intro network
    have hmatch := exactMatch_eq_entryAt hw network
    rw [hentries network, ← exactMatch_eq_entryAt hw' network] at hmatch
    exact hmatch
  obtain ⟨masks, table⟩ := rib
  obtain ⟨masks', table'⟩ := rib'
  exact congrArg₂ BgpRib.mk hmasks htable

end Tables

section Undone
variable {rib rib' rib'' : BgpRib} {router : Uuid} {route : Route}
  {report report' : Option BestRoute}

theorem entryAt_undone (hw : WellFormed rib) (hreg : router ∈ rib.routerMaskMap.map)
    (hnone : ∀ x ∈ rib.held router route.pfx, x.key ≠ route.key)
    (hinsert : rib.insertRoute route router = .ok (rib', report))
    (hremove : rib'.removeRoute route router = .ok (rib'', report')) (network : IpNetwork) :
    rib''.entryAt network = rib.entryAt network := by
  obtain ⟨mask, hmask⟩ := Finmap.mem_iff.mp hreg
  have hget := RouterMaskMap.get_of_lookup hmask
  obtain ⟨i, hi, rfl, -⟩ := RouterMaskMap.lookup_bit hw.masks hmask
  obtain ⟨masks, m, hgetInsert, rfl, -⟩ := BgpRib.insertRoute_ok hinsert
  obtain ⟨rfl, rfl⟩ := Prod.mk.inj (Except.ok.inj (hget.symm.trans hgetInsert))
  obtain ⟨masks', m', hgetRemove, -, hentries, -⟩ := BgpRib.removeRoute_ok hremove
  obtain ⟨rfl, rfl⟩ := Prod.mk.inj (Except.ok.inj (hget.symm.trans hgetRemove))
  rw [BgpRib.held_eq_entryAt, RouterMaskMap.tryGet_of_lookup hmask] at hnone
  rw [hentries, BgpRib.entryAt_insert]
  by_cases hn : network = route.pfx
  · subst hn
    rw [if_pos rfl, if_pos rfl]
    exact BgpRibEntry.withdraw_insert hi (hw.entries route.pfx).held hnone
  · rw [if_neg hn, if_neg hn]

end Undone

/-- In every reachable RIB, when a registered router holds no route of the peer at the prefix,
inserting a route and removing it again gives back the whole RIB. -/
theorem removeRoute_insertRoute {ops : List BgpRib.Op} {rib : BgpRib} {router : Uuid}
    {route : Route} (h : BgpRib.new.run ops = .ok rib) (hreg : router ∈ rib.routerMaskMap.map)
    (hnone : ∀ x ∈ rib.held router route.pfx, x.peer ≠ route.peer) :
    ∃ rib' report report', rib.insertRoute route router = .ok (rib', report) ∧
      rib'.removeRoute route router = .ok (rib, report') := by
  have hw := wellFormed_run wellFormed_new h
  obtain ⟨rib', hstep, hmasks⟩ := @step_of_registered rib (.insertRoute route router) hreg
  obtain ⟨report, hinsert⟩ := BgpRib.step_insertRoute_ok.mp hstep
  have hw' := wellFormed_insertRoute hw hinsert
  have hreg' : router ∈ rib'.routerMaskMap.map := by
    rw [hmasks]
    exact hreg
  obtain ⟨rib'', hstep', hmasks'⟩ := @step_of_registered rib' (.removeRoute route router) hreg'
  obtain ⟨report', hremove⟩ := BgpRib.step_removeRoute_ok.mp hstep'
  have hkeys : ∀ x ∈ rib.held router route.pfx, x.key ≠ route.key :=
    fun x hx hkey => hnone x hx (Prod.mk.inj hkey).1
  obtain rfl : rib'' = rib := eq_of_entryAt (wellFormed_removeRoute hw' hremove) hw
    (hmasks'.trans hmasks) (entryAt_undone hw hreg hkeys hinsert hremove)
  exact ⟨rib', report, report', hinsert, hremove⟩

/-- Router 1 stores a route, and router 2 inserts the same route and removes it: the bit of
router 2 comes and goes in the tuple of router 1. -/
theorem removeRoute_insertRoute_shared :
    ∃ rib rib' report report',
      BgpRib.new.run [.insertRoute (.sample 1 8 "10.0.0.1" [65001]) 1, .registerRouter 2] =
        .ok rib ∧
      rib.insertRoute (.sample 1 8 "10.0.0.1" [65001]) 2 = .ok (rib', report) ∧
      rib'.removeRoute (.sample 1 8 "10.0.0.1" [65001]) 2 = .ok (rib, report') := by
  obtain ⟨rib, hrun, hreg, hnone⟩ : ∃ rib,
      BgpRib.new.run [.insertRoute (.sample 1 8 "10.0.0.1" [65001]) 1, .registerRouter 2] =
        .ok rib ∧ 2 ∈ rib.routerMaskMap.map ∧
      ∀ x ∈ rib.held 2 (Route.sample 1 8 "10.0.0.1" [65001]).pfx,
        x.peer ≠ (Route.sample 1 8 "10.0.0.1" [65001]).peer := ⟨_, rfl, by decide, by decide⟩
  obtain ⟨rib', report, report', hinsert, hremove⟩ := removeRoute_insertRoute hrun hreg hnone
  exact ⟨rib, rib', report, report', hrun, hinsert, hremove⟩

end NetfabricBgp.UndoneInsertions
