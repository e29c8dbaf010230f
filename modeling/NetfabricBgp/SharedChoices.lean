import NetfabricBgp.ReferenceStores
import NetfabricBgp.RibLifecycles
import Mathlib.Data.List.TakeWhile

/-!
The best route of a router on the shared RIB against its best route on a RIB of its own,
after the same calls of the router. The two RIBs give it the same routes, but in orders
that differ when another router stored one of them first, and the order decides among
ties. Routes that no other router ever inserts stand in the same order in both.
-/
namespace NetfabricBgp.SharedChoices

open LastMaximum KeyedLog Addresses Routes RouterMasks Ribs RibInvariants ReferenceStores

/-- The calls of one router, in their order. -/
def ownOps (router : Uuid) (ops : List BgpRib.Op) : List BgpRib.Op :=
  ops.filter (fun op => op.router = router)

theorem ownLog_ownOps (router : Uuid) (ops : List BgpRib.Op) :
    ownLog router (ownOps router ops) = ownLog router ops := by
  unfold ownLog ownOps
  rw [List.filterMap_filter]
  apply List.filterMap_congr
  intro op _
  cases op with
  | registerRouter id => simp
  | insertRoute route id => by_cases hid : id = router <;> simp [BgpRib.Op.router, hid]
  | removeRoute route id => by_cases hid : id = router <;> simp [BgpRib.Op.router, hid]

/-- A router alone on a RIB never finds the mask map full. -/
theorem run_ownOps_total (router : Uuid) (ops : List BgpRib.Op) :
    ∃ alone, BgpRib.new.run (ownOps router ops) = .ok alone := by
  apply run_total wellFormed_new
  have hempty : BgpRib.new.routerMaskMap.map.keys = ∅ := Finmap.keys_empty
  have hsub : ((ownOps router ops).map BgpRib.Op.router).toFinset ⊆ {router} := by
    intro id hid
    obtain ⟨op, hop, rfl⟩ := List.mem_map.mp (List.mem_toFinset.mp hid)
    exact Finset.mem_singleton.mpr (of_decide_eq_true (List.mem_filter.mp hop).2)
  have hcard := Finset.card_le_card hsub
  rw [Finset.card_singleton] at hcard
  rw [hempty, Finset.empty_union]
  omega

section Orders
variable {ops : List BgpRib.Op} {rib rib' alone alone' : BgpRib} {router : Uuid}

theorem insertRoute_mem_of_held (h : BgpRib.new.run ops = .ok rib) {network : IpNetwork}
    {x : Route} (hx : x ∈ rib.held router network) : .insertRoute x router ∈ ops := by
  have hadd := add_mem_of_live Route.key ((mem_held_iff_live h).mp hx).1
  obtain ⟨op, hop, hentry⟩ := List.mem_filterMap.mp hadd
  cases op with
  | registerRouter id => cases hentry
  | insertRoute route id =>
    by_cases hid : id = router
    · simp only [hid, if_true, Option.some.injEq, Entry.add.injEq] at hentry
      exact hentry ▸ hid ▸ hop
    · simp [hid] at hentry
  | removeRoute route id => by_cases hid : id = router <;> simp [hid] at hentry

/-- A route that no other router inserts is stored only while the router holds it. -/
theorem notMem_stored (h : BgpRib.new.run ops = .ok rib) {network : IpNetwork} {x : Route}
    (hothers : ∀ other, other ≠ router → .insertRoute x other ∉ ops)
    (hx : x ∉ rib.held router network) : x ∉ rib.stored network := by
  intro hstored
  have hrep := RibLifecycles.represented (wellFormed_run wellFormed_new h)
  cases hentry : rib.treebitmap.exactMatch network with
  | none => simp [BgpRib.stored, hentry] at hstored
  | some entry =>
    simp only [BgpRib.stored, hentry] at hstored
    obtain ⟨id, -, hheld⟩ := hrep.held network entry hentry x hstored
    by_cases hid : id = router
    · exact hx (hid ▸ hheld)
    · exact hothers id hid (insertRoute_mem_of_held h hheld)

/-- A route of its own enters a router's view at the end, and any other insertion leaves
the order of the routes of its own as it is. -/
theorem filter_held_insertRoute {own : Route → Bool} {route : Route}
    {report : Option BestRoute} (h : BgpRib.new.run ops = .ok rib)
    (hown : ∀ x, own x = true → ∀ other, other ≠ router → .insertRoute x other ∉ ops)
    (hinsert : rib.insertRoute route router = .ok (rib', report)) :
    (rib'.held router route.pfx).filter own = (rib.held router route.pfx).filter own ++
      if own route = true ∧ route ∉ rib.held router route.pfx then [route] else [] := by
  have hw := wellFormed_run wellFormed_new h
  by_cases hmem : route ∈ rib.held router route.pfx
  · simp [held_insertRoute_of_mem hw hinsert hmem, hmem]
  obtain ⟨before, after, hold, hnew, hbehind⟩ := held_insertRoute_split hw hinsert hmem
  by_cases hroute : own route = true
  · have hstored := notMem_stored h (hown route hroute) hmem
    have hafter : after = [] := by
      apply List.eq_nil_iff_forall_not_mem.mpr
      intro y hy
      have hdrop := (hbehind y (List.mem_append_right _ hy)).mp hy
      have hnil : (rib.stored route.pfx).dropWhile (· ≠ route) = [] := by
        apply List.dropWhile_eq_nil_iff.mpr
        intro z hz
        exact decide_eq_true (fun heq => hstored (heq ▸ hz))
      rw [hnil] at hdrop
      cases hdrop
    subst hafter
    rw [List.append_nil] at hold
    rw [if_pos ⟨hroute, hmem⟩, hnew, hold, List.filter_append, List.filter_cons_of_pos hroute]
    rfl
  · rw [hnew, hold]
    simp [hroute]

theorem mem_held_iff_alone (h : BgpRib.new.run ops = .ok rib)
    (halone : BgpRib.new.run (ownOps router ops) = .ok alone) {network : IpNetwork} {x : Route} :
    x ∈ rib.held router network ↔ x ∈ alone.held router network := by
  rw [mem_held_iff_live h, mem_held_iff_live halone, ownLog_ownOps]

/-- The routes that nobody else inserts stand in the same order in the router's view of the
shared RIB and in its view alone. The induction follows the calls from the last one. -/
theorem filter_held_eq_alone (own : Route → Bool) (h : BgpRib.new.run ops = .ok rib)
    (halone : BgpRib.new.run (ownOps router ops) = .ok alone)
    (hown : ∀ x, own x = true → ∀ other, other ≠ router → .insertRoute x other ∉ ops)
    (network : IpNetwork) :
    (rib.held router network).filter own = (alone.held router network).filter own := by
  induction ops using List.reverseRecOn generalizing rib alone with
  | nil =>
    obtain rfl : rib = alone := Except.ok.inj (h.symm.trans halone)
    rfl
  | append_singleton ops op ih =>
    obtain ⟨mid, hmid, hlast⟩ := Runs.run_append_ok.mp h
    obtain ⟨rib', hstep, hnil⟩ := Runs.run_cons_ok.mp hlast
    obtain rfl : rib' = rib := Except.ok.inj hnil
    have hw := wellFormed_run wellFormed_new hmid
    have hownMid : ∀ x, own x = true → ∀ other, other ≠ router → .insertRoute x other ∉ ops :=
      fun x hx other hne hin => hown x hx other hne (List.mem_append_left _ hin)
    by_cases hrouter : op.router = router
    · have hops : ownOps router (ops ++ [op]) = ownOps router ops ++ [op] := by
        simp [ownOps, hrouter]
      rw [hops] at halone
      obtain ⟨midAlone, hmidAlone, hlastAlone⟩ := Runs.run_append_ok.mp halone
      obtain ⟨alone', hstepAlone, hnilAlone⟩ := Runs.run_cons_ok.mp hlastAlone
      obtain rfl : alone' = alone := Except.ok.inj hnilAlone
      have hwAlone := wellFormed_run wellFormed_new hmidAlone
      have hownAlone : ∀ x, own x = true → ∀ other, other ≠ router →
          .insertRoute x other ∉ ownOps router ops :=
        fun x hx other hne hin => hownMid x hx other hne (List.mem_of_mem_filter hin)
      have hview := ih hmid hmidAlone hownMid
      cases op with
      | registerRouter id =>
        rw [held_registerRouter hw hstep, held_registerRouter hwAlone hstepAlone, hview]
      | insertRoute route id =>
        obtain rfl : id = router := hrouter
        obtain ⟨report, hinsert⟩ := BgpRib.step_insertRoute_ok.mp hstep
        obtain ⟨report', hinsert'⟩ := BgpRib.step_insertRoute_ok.mp hstepAlone
        by_cases hn : network = route.pfx
        · subst hn
          rw [filter_held_insertRoute hmid hownMid hinsert,
            filter_held_insertRoute hmidAlone hownAlone hinsert', hview]
          simp only [mem_held_iff_alone hmid hmidAlone]
        · rw [held_insertRoute_of_ne hw hinsert (Or.inr hn),
            held_insertRoute_of_ne hwAlone hinsert' (Or.inr hn), hview]
      | removeRoute route id =>
        obtain rfl : id = router := hrouter
        obtain ⟨report, hremove⟩ := BgpRib.step_removeRoute_ok.mp hstep
        obtain ⟨report', hremove'⟩ := BgpRib.step_removeRoute_ok.mp hstepAlone
        by_cases hn : network = route.pfx
        · subst hn
          rw [held_removeRoute hw hremove, held_removeRoute hwAlone hremove',
            List.filter_comm, hview, List.filter_comm]
        · rw [held_removeRoute_of_ne hw hremove (Or.inr hn),
            held_removeRoute_of_ne hwAlone hremove' (Or.inr hn), hview]
    · have hops : ownOps router (ops ++ [op]) = ownOps router ops := by
        simp [ownOps, hrouter]
      rw [hops] at halone
      rw [held_step_of_ne hw hstep (Ne.symm hrouter)]
      exact ih hmid halone hownMid

/-- The best routes of one set of routes tie, whatever the orders. -/
theorem best_tie_alone {network : IpNetwork} {best best' : BestRoute}
    (h : BgpRib.new.run ops = .ok rib) (halone : BgpRib.new.run (ownOps router ops) = .ok alone)
    (hbest : rib.best router network = some best)
    (hbest' : alone.best router network = some best') : best'.route.cmp best.route = .eq :=
  lastMax_tie Route.cmp (fun _ => mem_held_iff_alone h halone)
    (BestRoute.calculate_eq_some_iff.mp hbest) (BestRoute.calculate_eq_some_iff.mp hbest')

/-- When all routes that tie with the best one are the router's own, both RIBs keep them in
one order and the same route is the best one. -/
theorem best_eq_alone {network : IpNetwork} {best best' : BestRoute}
    (h : BgpRib.new.run ops = .ok rib) (halone : BgpRib.new.run (ownOps router ops) = .ok alone)
    (hbest : rib.best router network = some best)
    (hbest' : alone.best router network = some best')
    (hown : ∀ x ∈ rib.held router network, x.cmp best.route = .eq →
      ∀ other, other ≠ router → .insertRoute x other ∉ ops) : best' = best := by
  have htie := best_tie_alone h halone hbest hbest'
  have hheld : best.route ∈ rib.held router network := BestRoute.calculate_mem hbest
  have hheld' : best'.route ∈ rib.held router network :=
    (mem_held_iff_alone h halone).mpr (BestRoute.calculate_mem hbest')
  let tied : Route → Bool := fun x =>
    decide (x ∈ rib.held router network ∧ x.cmp best.route = .eq)
  have hview := filter_held_eq_alone tied h halone
    (fun x hx => hown x (of_decide_eq_true hx).1 (of_decide_eq_true hx).2) network
  have hfilter := lastMax_filter Route.cmp tied (BestRoute.calculate_eq_some_iff.mp hbest)
    (decide_eq_true ⟨hheld, Std.ReflCmp.compare_self⟩)
  have hfilter' := lastMax_filter Route.cmp tied (BestRoute.calculate_eq_some_iff.mp hbest')
    (decide_eq_true ⟨hheld', htie⟩)
  rw [hview, hfilter', Option.some.injEq] at hfilter
  exact congrArg BestRoute.mk hfilter

end Orders

/-- In every interleaving of the calls of all routers, the best route of a router and the
best route it would have alone tie. They are one route unless the router holds another
route that ties with its best one and other routers have inserted one of the tied routes. -/
theorem best_ties_alone {ops : List BgpRib.Op} {rib : BgpRib} (h : BgpRib.new.run ops = .ok rib)
    (router : Uuid) :
    ∃ alone, BgpRib.new.run (ownOps router ops) = .ok alone ∧
      ∀ network, rib.held router network ≠ [] →
        ∃ best best', rib.best router network = some best ∧
          alone.best router network = some best' ∧
          best'.route ∈ rib.held router network ∧ best.route ∈ alone.held router network ∧
          best'.route.cmp best.route = .eq ∧
          (best' ≠ best → ∃ x ∈ rib.held router network, x.cmp best.route = .eq ∧
            ∃ other, other ≠ router ∧ .insertRoute x other ∈ ops) := by
  obtain ⟨alone, halone⟩ := run_ownOps_total router ops
  refine ⟨alone, halone, ?_⟩
  intro network hne
  obtain ⟨best, hbest⟩ := BestRoute.exists_calculate hne
  have hne' : alone.held router network ≠ [] := by
    intro hnil
    have hheld := (mem_held_iff_alone h halone).mp (BestRoute.calculate_mem hbest)
    rw [hnil] at hheld
    cases hheld
  obtain ⟨best', hbest'⟩ := BestRoute.exists_calculate hne'
  have hheld : best.route ∈ alone.held router network :=
    (mem_held_iff_alone h halone).mp (BestRoute.calculate_mem hbest)
  have hheld' : best'.route ∈ rib.held router network :=
    (mem_held_iff_alone h halone).mpr (BestRoute.calculate_mem hbest')
  refine ⟨best, best', hbest, hbest', hheld', hheld, best_tie_alone h halone hbest hbest', ?_⟩
  intro hdiffer
  by_contra hnone
  apply hdiffer
  apply best_eq_alone h halone hbest hbest'
  intro x hx hxtie other hother hin
  exact hnone ⟨x, hx, hxtie, other, hother, hin⟩

/-- Router 2 stores a route before router 1 stores it behind one that ties with it. -/
def crossedOps : List BgpRib.Op :=
  [.insertRoute (.sample 1 8 "10.0.0.2" [65002]) 2, .insertRoute (.sample 1 8 "10.0.0.1" [65001]) 1,
    .insertRoute (.sample 1 8 "10.0.0.2" [65002]) 1]

theorem best_ties_alone_crossed :
    ∃ rib alone, BgpRib.new.run crossedOps = .ok rib ∧
      BgpRib.new.run (ownOps 1 crossedOps) = .ok alone ∧
      ∃ best best', rib.best 1 (.V4 (.around 0x0A010203#32 8)) = some best ∧
        alone.best 1 (.V4 (.around 0x0A010203#32 8)) = some best' ∧
        best'.route.cmp best.route = .eq := by
  obtain ⟨rib, hrun, hne⟩ : ∃ rib, BgpRib.new.run crossedOps = .ok rib ∧
      rib.held 1 (.V4 (.around 0x0A010203#32 8)) ≠ [] := ⟨_, rfl, by decide⟩
  obtain ⟨alone, halone, hall⟩ := best_ties_alone hrun 1
  obtain ⟨best, best', hbest, hbest', -, -, htie, -⟩ := hall _ hne
  exact ⟨rib, alone, hrun, halone, best, best', hbest, hbest', htie⟩

/-- Router 1 chooses the route it stored first, and alone it would choose the second. -/
theorem best_ne_alone_crossed :
    ∃ rib alone, BgpRib.new.run crossedOps = .ok rib ∧
      BgpRib.new.run (ownOps 1 crossedOps) = .ok alone ∧
      rib.held 1 (.V4 (.around 0x0A010203#32 8)) ≠ [] ∧
      rib.best 1 (.V4 (.around 0x0A010203#32 8)) = some ⟨.sample 1 8 "10.0.0.1" [65001]⟩ ∧
      alone.best 1 (.V4 (.around 0x0A010203#32 8)) = some ⟨.sample 1 8 "10.0.0.2" [65002]⟩ ∧
      rib.best 1 (.V4 (.around 0x0A010203#32 8)) ≠
        alone.best 1 (.V4 (.around 0x0A010203#32 8)) :=
  ⟨_, _, rfl, rfl, by decide, by decide, by decide, by decide⟩

end NetfabricBgp.SharedChoices
