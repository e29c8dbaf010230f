import NetfabricBgp.InsertionReports
import NetfabricBgp.SharedChoices

/-!
What becomes of a route that ties with the best one when one router uses the RIB alone. A
new route comes last and the last of tied routes wins, so it takes over, and it is
reported even if the router held it already and its best route stays.
-/
namespace NetfabricBgp.TiedInsertions

open LastMaximum Addresses Routes RouterMasks Ribs RibInvariants InsertionReports SharedChoices

section Alone
variable {ops : List BgpRib.Op} {rib rib' : BgpRib} {router : Uuid} {route : Route}
  {best : BestRoute} {report : Option BestRoute}

/-- What one router alone stores, it holds. -/
theorem mem_held_of_stored (h : BgpRib.new.run ops = .ok rib)
    (halone : ∀ op ∈ ops, op.router = router) {network : IpNetwork} {x : Route}
    (hx : x ∈ rib.stored network) : x ∈ rib.held router network := by
  by_contra hnot
  refine notMem_stored h ?_ hnot hx
  intro other hne hin
  exact hne (halone _ hin)

/-- A new route of a router that is alone comes last. -/
theorem held_insertRoute_alone (h : BgpRib.new.run ops = .ok rib)
    (halone : ∀ op ∈ ops, op.router = router)
    (hinsert : rib.insertRoute route router = .ok (rib', report))
    (hnot : route ∉ rib.held router route.pfx) :
    rib'.held router route.pfx = rib.held router route.pfx ++ [route] := by
  have hview := @filter_held_insertRoute ops rib rib' router (fun _ => true) route report h
    (fun x _ other hne hin => hne (halone _ hin)) hinsert
  simpa [hnot] using hview

/-- Nothing a router holds exceeds a route that ties with its best one. -/
theorem isLE_of_tie {network : IpNetwork} (hbest : rib.best router network = some best)
    (htie : route.cmp best.route = .eq) {x : Route} (hx : x ∈ rib.held router network) :
    (x.cmp route).isLE := by
  have hle : (x.cmp best.route).isLE := BestRoute.calculate_isLE hbest hx
  apply Std.TransCmp.isLE_trans hle
  rw [Std.OrientedCmp.eq_comm.mp htie]
  rfl

/-- A tied route takes over unless the router holds it already. -/
theorem best_insertRoute_tie (h : BgpRib.new.run ops = .ok rib)
    (halone : ∀ op ∈ ops, op.router = router)
    (hbest : rib.best router route.pfx = some best) (hne : route ≠ best.route)
    (htie : route.cmp best.route = .eq)
    (hinsert : rib.insertRoute route router = .ok (rib', report)) :
    rib'.best router route.pfx = some best ↔ route ∈ rib.held router route.pfx := by
  have hw := wellFormed_run wellFormed_new h
  by_cases hmem : route ∈ rib.held router route.pfx
  · have hsame : rib'.best router route.pfx = rib.best router route.pfx := by
      rw [BgpRib.best, BgpRib.best, held_insertRoute_of_mem hw hinsert hmem]
    exact iff_of_true (hsame.trans hbest) hmem
  · refine iff_of_false ?_ hmem
    have hnew : rib'.best router route.pfx = some (.ofRoute route) := by
      rw [BgpRib.best, held_insertRoute_alone h halone hinsert hmem,
        BestRoute.calculate_eq_some_iff]
      exact (lastMax_append_eq_self_iff Route.cmp).mpr (fun x hx => isLE_of_tie hbest htie hx)
    rw [hnew, Option.some.injEq]
    intro heq
    exact hne (congrArg BestRoute.route heq)

end Alone

/-- In every RIB that one router uses alone the insertion of a route that ties with its best
route is reported, and the best route stays exactly when the router held the inserted
one already: it never happens that the best route stays and nothing is reported. -/
theorem tie_never_silent {ops : List BgpRib.Op} {rib : BgpRib} {router : Uuid} {route : Route}
    {best : BestRoute} (h : BgpRib.new.run ops = .ok rib)
    (halone : ∀ op ∈ ops, op.router = router)
    (hbest : rib.best router route.pfx = some best) (hne : route ≠ best.route)
    (htie : route.cmp best.route = .eq) :
    ∃ rib' report, rib.insertRoute route router = .ok (rib', report) ∧
      report = some (.ofRoute route) ∧
      (rib'.best router route.pfx = some best ↔ route ∈ rib.held router route.pfx) ∧
      ¬ (rib'.best router route.pfx = some best ∧ report = none) := by
  have hw := wellFormed_run wellFormed_new h
  obtain ⟨i, -, hget, -⟩ := get_of_held hw (BestRoute.calculate_mem hbest)
  obtain ⟨rib', hstep, -⟩ := @step_of_get rib (.insertRoute route router) _ _ hget
  obtain ⟨report, hinsert⟩ := BgpRib.step_insertRoute_ok.mp hstep
  refine ⟨rib', report, hinsert, ?_⟩
  rcases insertRoute_report hinsert with ⟨-, x, hx, hgt⟩ | ⟨rfl, -⟩
  · have hle := isLE_of_tie hbest htie (mem_held_of_stored h halone hx)
    exact absurd hgt (Ordering.isLE_iff_ne_gt.mp hle)
  · refine ⟨rfl, best_insertRoute_tie h halone hbest hne htie hinsert, ?_⟩
    intro hsilent
    cases hsilent.2

/-- Router 1 holds one route. -/
def heldOps : List BgpRib.Op := [.insertRoute (.sample 1 8 "10.0.0.1" [65001]) 1]

theorem tie_never_silent_held :
    ∃ rib rib' report, BgpRib.new.run heldOps = .ok rib ∧
      rib.best 1 (Route.sample 1 8 "10.0.0.2" [65002]).pfx =
        some (.ofRoute (.sample 1 8 "10.0.0.1" [65001])) ∧
      rib.insertRoute (.sample 1 8 "10.0.0.2" [65002]) 1 = .ok (rib', report) ∧
      ¬ (rib'.best 1 (Route.sample 1 8 "10.0.0.2" [65002]).pfx =
          some (.ofRoute (.sample 1 8 "10.0.0.1" [65001])) ∧ report = none) := by
  obtain ⟨rib, hrun, hbest⟩ : ∃ rib, BgpRib.new.run heldOps = .ok rib ∧
      rib.best 1 (Route.sample 1 8 "10.0.0.2" [65002]).pfx =
        some (.ofRoute (.sample 1 8 "10.0.0.1" [65001])) := ⟨_, rfl, by decide⟩
  obtain ⟨rib', report, hinsert, -, -, hnot⟩ :=
    tie_never_silent hrun (by decide) hbest (by decide) (by decide)
  exact ⟨rib, rib', report, hrun, hbest, hinsert, hnot⟩

/-- Another route with the same peer and a path of the same length takes over and is
reported. -/
theorem tie_takes_over_held :
    ∃ rib rib', BgpRib.new.run heldOps = .ok rib ∧
      rib.best 1 (Route.sample 1 8 "10.0.0.2" [65002]).pfx =
        some (.ofRoute (.sample 1 8 "10.0.0.1" [65001])) ∧
      rib.insertRoute (.sample 1 8 "10.0.0.2" [65002]) 1 =
        .ok (rib', some (.ofRoute (.sample 1 8 "10.0.0.2" [65002]))) ∧
      rib'.best 1 (Route.sample 1 8 "10.0.0.2" [65002]).pfx =
        some (.ofRoute (.sample 1 8 "10.0.0.2" [65002])) ∧
      ¬ (rib'.best 1 (Route.sample 1 8 "10.0.0.2" [65002]).pfx =
        some (.ofRoute (.sample 1 8 "10.0.0.1" [65001]))) :=
  ⟨_, _, rfl, by decide, rfl, by decide, by decide⟩

end NetfabricBgp.TiedInsertions
