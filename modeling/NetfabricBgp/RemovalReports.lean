import NetfabricBgp.InsertionReports

/-!
Whether a removal that reports a withdrawn best route took it from the router that called.
The report looks at the best of all stored routes, while only the caller's bit is cleared,
so a route that another router alone holds is reported withdrawn and stays where it is.
-/
namespace NetfabricBgp.RemovalReports

open LastMaximum Addresses Routes RouterMasks RibEntries Ribs RibInvariants InsertionReports

/-- The reported route was the caller's best route at the prefix, and the caller lost it. -/
def ReallyWithdrawn (before after : BgpRib) (router : Uuid) (network : IpNetwork)
    (report : Option BestRoute) : Prop :=
  ∀ best, report = some best →
    before.best router network = some best ∧ best.route ∉ after.held router network

/-- The route is not the best of the stored ones: nobody stores it, or some stored route
outranks it, or one that stands behind it ties with it. -/
def Surpassed (rib : BgpRib) (route : Route) : Prop :=
  route ∉ rib.stored route.pfx ∨ (∃ x ∈ rib.stored route.pfx, x.cmp route = .gt) ∨
    ∃ x ∈ (rib.stored route.pfx).dropWhile (· ≠ route), x ≠ route ∧ x.cmp route = .eq

section Removal
variable {rib rib' : BgpRib} {router : Uuid} {route : Route} {report : Option BestRoute}

theorem calculate_stored_iff (hw : WellFormed rib) :
    BestRoute.calculate (rib.stored route.pfx) = some (.ofRoute route) ↔
      ¬ Surpassed rib route := by
  rw [BestRoute.calculate_eq_some_iff, BestRoute.ofRoute,
    lastMax_eq_some_iff_of_nodup Route.cmp (nodup_stored hw route.pfx), Surpassed]
  simp only [not_or, not_not, not_exists, not_and, Ordering.isLE_iff_ne_gt, ne_eq]

/-- A route that is the best of all stored ones is the best of each of its holders. -/
theorem best_of_calculate_stored (hw : WellFormed rib)
    (h : BestRoute.calculate (rib.stored route.pfx) = some (.ofRoute route))
    (hheld : route ∈ rib.held router route.pfx) :
    rib.best router route.pfx = some (.ofRoute route) := by
  rw [BestRoute.calculate_eq_some_iff] at h
  exact BestRoute.calculate_eq_some_iff.mpr (lastMax_of_sublist Route.cmp
    (nodup_stored hw route.pfx) (held_sublist_stored rib router route.pfx) h hheld)

theorem removeRoute_report (hw : WellFormed rib)
    (h : rib.removeRoute route router = .ok (rib', report)) :
    (report = none ∧ Surpassed rib route) ∨
      (report = some (.ofRoute route) ∧ ¬ Surpassed rib route) := by
  obtain ⟨-, -, -, -, -, -, hreport⟩ := BgpRib.removeRoute_ok h
  by_cases hbest : BestRoute.calculate (rib.stored route.pfx) = some (.ofRoute route)
  · exact Or.inr ⟨hreport.trans (if_pos hbest), (calculate_stored_iff hw).mp hbest⟩
  · exact Or.inl ⟨hreport.trans (if_neg hbest),
      not_not.mp (fun hnot => hbest ((calculate_stored_iff hw).mpr hnot))⟩

end Removal

/-- In every reachable RIB a reported withdrawal really happened exactly when the caller held
the route, or the route was surpassed, so that nothing is reported. -/
theorem reallyWithdrawn_iff {ops : List BgpRib.Op} {rib rib' : BgpRib} {route : Route}
    {router : Uuid} {report : Option BestRoute} (h : BgpRib.new.run ops = .ok rib)
    (hremove : rib.removeRoute route router = .ok (rib', report)) :
    ReallyWithdrawn rib rib' router route.pfx report ↔
      route ∈ rib.held router route.pfx ∨ Surpassed rib route := by
  have hw := wellFormed_run wellFormed_new h
  rcases removeRoute_report hw hremove with ⟨rfl, hsurpassed⟩ | ⟨rfl, hbest⟩
  · constructor
    · exact fun _ => Or.inr hsurpassed
    · intro _ best hreport
      cases hreport
  · constructor
    · intro hreally
      exact Or.inl (BestRoute.calculate_mem (hreally _ rfl).1)
    · intro hcond best hreport
      obtain rfl : BestRoute.ofRoute route = best := Option.some.inj hreport
      have hheld := hcond.resolve_right hbest
      exact ⟨best_of_calculate_stored hw ((calculate_stored_iff hw).mpr hbest) hheld,
        notMem_held_removeRoute hw hremove rfl⟩

/-- Router 1 stores a route, and router 2 is registered and stores nothing. -/
def unsharedOps : List BgpRib.Op :=
  [.insertRoute (.sample 1 8 "10.0.0.1" [65001]) 1, .registerRouter 2]

theorem reallyWithdrawn_iff_unshared :
    ∃ rib rib' report, BgpRib.new.run unsharedOps = .ok rib ∧
      rib.removeRoute (.sample 1 8 "10.0.0.1" [65001]) 1 = .ok (rib', report) ∧
      (ReallyWithdrawn rib rib' 1 (Route.sample 1 8 "10.0.0.1" [65001]).pfx report ↔
        Route.sample 1 8 "10.0.0.1" [65001] ∈
            rib.held 1 (Route.sample 1 8 "10.0.0.1" [65001]).pfx ∨
          Surpassed rib (.sample 1 8 "10.0.0.1" [65001])) :=
  ⟨_, _, _, rfl, rfl, reallyWithdrawn_iff (show BgpRib.new.run unsharedOps = .ok _ from rfl) rfl⟩

/-- Router 2 removes the route that router 1 alone holds: it is reported withdrawn, router 2
held nothing, and router 1 still holds it. -/
theorem not_reallyWithdrawn_unshared :
    ∃ rib rib', BgpRib.new.run unsharedOps = .ok rib ∧
      rib.removeRoute (.sample 1 8 "10.0.0.1" [65001]) 2 =
        .ok (rib', some (.ofRoute (.sample 1 8 "10.0.0.1" [65001]))) ∧
      rib.held 2 (Route.sample 1 8 "10.0.0.1" [65001]).pfx = [] ∧
      rib'.held 1 (Route.sample 1 8 "10.0.0.1" [65001]).pfx =
        [.sample 1 8 "10.0.0.1" [65001]] ∧
      ¬ ReallyWithdrawn rib rib' 2 (Route.sample 1 8 "10.0.0.1" [65001]).pfx
        (some (.ofRoute (.sample 1 8 "10.0.0.1" [65001]))) := by
  refine ⟨_, _, rfl, rfl, by decide, by decide, ?_⟩
  intro h
  exact absurd (h _ rfl).1 (by decide)

end NetfabricBgp.RemovalReports
