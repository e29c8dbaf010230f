import NetfabricBgp.Routes

/-!
Which of several routes is chosen, against the decision steps written at the comparison:
the shortest path, and then the lowest address of the peer. Only the comparison of the
lengths is reversed before the maximum is taken, so the highest peer is chosen.
-/
namespace NetfabricBgp.RouteChoices

open LastMaximum Addresses Routes

/-- No route of the list has a shorter path. -/
structure IsShortest (routes : List Route) (route : Route) : Prop where
  member : route ∈ routes
  shortest : ∀ x ∈ routes, route.asPath.length ≤ x.asPath.length

/-- The choice that the decision steps ask for. -/
structure FollowsSteps (routes : List Route) (best : Route) : Prop extends
    IsShortest routes best where
  lowest_peer : ∀ x ∈ routes, x.asPath.length = best.asPath.length →
    (best.peer.cmp x.peer).isLE

/-- All routes with a shortest path come from one peer. -/
def OneShortestPeer (routes : List Route) : Prop :=
  ∀ x y, IsShortest routes x → IsShortest routes y → x.peer = y.peer

section Choice
variable {routes : List Route} {best : BestRoute}

theorem isShortest_calculate (h : BestRoute.calculate routes = some best) :
    IsShortest routes best.route where
  member := BestRoute.calculate_mem h
  shortest := fun _ hx => Route.length_le_of_isLE (BestRoute.calculate_isLE h hx)

/-- Among the shortest paths the highest peer is chosen. -/
theorem highest_calculate (h : BestRoute.calculate routes = some best) {x : Route}
    (hx : x ∈ routes) (hlen : x.asPath.length = best.route.asPath.length) :
    (x.peer.cmp best.route.peer).isLE :=
  Route.peer_isLE_of_isLE hlen (BestRoute.calculate_isLE h hx)

theorem IsShortest.length_eq {x y : Route} (hx : IsShortest routes x)
    (hy : IsShortest routes y) : x.asPath.length = y.asPath.length := by
  have hxy := hx.shortest y hy.member
  have hyx := hy.shortest x hx.member
  omega

end Choice

/-- For every list with a route in it the choice follows the decision steps exactly when all
routes with a shortest path come from one peer. -/
theorem followsSteps_iff {routes : List Route} (h : routes ≠ []) :
    ∃ best, BestRoute.calculate routes = some best ∧
      (FollowsSteps routes best.route ↔ OneShortestPeer routes) := by
  obtain ⟨best, hbest⟩ := BestRoute.exists_calculate h
  have hshortest := isShortest_calculate hbest
  refine ⟨best, hbest, ?_⟩
  constructor
  · intro hsteps
    have hpeer : ∀ x, IsShortest routes x → x.peer = best.route.peer := by
      intro x hx
      have hlen := hx.length_eq hshortest
      exact IpAddr.eq_of_cmp_isLE (highest_calculate hbest hx.member hlen)
        (hsteps.lowest_peer x hx.member hlen)
    intro x y hx hy
    rw [hpeer x hx, hpeer y hy]
  · intro hone
    refine ⟨hshortest, ?_⟩
    intro x hx hlen
    have hxshortest : IsShortest routes x :=
      ⟨hx, fun y hy => hlen ▸ hshortest.shortest y hy⟩
    rw [hone best.route x hshortest hxshortest, IpAddr.cmp_isLE_iff]

/-- Two routes of one peer with paths of one length, and a longer one of a lower peer. -/
def onePeer : List Route :=
  [.sample 2 8 "10.0.0.2" [65002], .sample 1 8 "10.0.0.1" [65001, 65003],
    .sample 2 8 "10.0.0.3" [65004]]

theorem followsSteps_iff_onePeer :
    ∃ best, BestRoute.calculate onePeer = some best ∧
      best.route = .sample 2 8 "10.0.0.3" [65004] ∧ FollowsSteps onePeer best.route := by
  obtain ⟨best, hbest, hiff⟩ := @followsSteps_iff onePeer (List.cons_ne_nil _ _)
  have hcalculate : BestRoute.calculate onePeer =
      some (.ofRoute (.sample 2 8 "10.0.0.3" [65004])) := by decide
  obtain rfl := Option.some.inj (hcalculate.symm.trans hbest)
  refine ⟨_, hbest, rfl, hiff.mpr ?_⟩
  have hpeer : ∀ x, IsShortest onePeer x → x.peer = .V4 2 := by
    intro x hx
    have hshort := hx.shortest (.sample 2 8 "10.0.0.2" [65002]) (by decide)
    have hmem := hx.member
    simp only [onePeer, List.mem_cons, List.not_mem_nil, or_false] at hmem
    rcases hmem with rfl | rfl | rfl
    · rfl
    · exact absurd hshort (by decide)
    · rfl
  intro x y hx hy
  rw [hpeer x hx, hpeer y hy]

/-- Of two peers with paths of one length the second is chosen, and the first is lower. -/
theorem not_followsSteps_two :
    BestRoute.calculate [.sample 1 8 "10.0.0.1" [65001], .sample 2 8 "10.0.0.2" [65002]] =
        some (.ofRoute (.sample 2 8 "10.0.0.2" [65002])) ∧
      ¬ FollowsSteps [.sample 1 8 "10.0.0.1" [65001], .sample 2 8 "10.0.0.2" [65002]]
        (.sample 2 8 "10.0.0.2" [65002]) := by
  refine ⟨by decide, ?_⟩
  intro h
  exact absurd (h.lowest_peer (.sample 1 8 "10.0.0.1" [65001]) (by simp) rfl) (by decide)

end NetfabricBgp.RouteChoices
