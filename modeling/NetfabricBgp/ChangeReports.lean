import NetfabricBgp.RibInvariants

/-!
What an insertion reports, against what changes for the router that inserts. The report
compares the new route with all stored routes of the prefix, so a better route that only
other routers hold silences it although the inserting router's best route has changed.
-/
namespace NetfabricBgp.ChangeReports

open LastMaximum Addresses Routes RouterMasks RibEntries Ribs RibInvariants

/-- A changed best route of the inserting router is what the insertion returns. -/
def ReportsChange (rib rib' : BgpRib) (router : Uuid) (route : Route)
    (report : Option BestRoute) : Prop :=
  rib'.best router route.pfx ≠ rib.best router route.pfx →
    ∃ best, rib'.best router route.pfx = some best ∧ report = some best

/-- The router already has the route, or one that stays ahead of it (a better one, or an
equal one stored behind it), or no stored route of the prefix is better. -/
def NotOutranked (rib : BgpRib) (router : Uuid) (route : Route) : Prop :=
  route ∈ rib.held router route.pfx ∨
    (∃ y ∈ rib.held router route.pfx, y.cmp route = .gt) ∨
    (∃ y ∈ rib.held router route.pfx,
      y ∈ (rib.stored route.pfx).dropWhile (· ≠ route) ∧ y.cmp route = .eq) ∨
    ∀ x ∈ rib.stored route.pfx, (x.cmp route).isLE

section Insertion
variable {rib rib' : BgpRib} {router : Uuid} {route : Route} {report : Option BestRoute}

theorem reportsChange_of_notOutranked (hw : WellFormed rib)
    (h : rib.insertRoute route router = .ok (rib', report))
    (hcond : NotOutranked rib router route) : ReportsChange rib rib' router route report := by
  intro hchange
  by_cases hmem : route ∈ rib.held router route.pfx
  · exact absurd (congrArg BestRoute.calculate (held_insertRoute_of_mem hw h hmem)) hchange
  obtain ⟨before, after, hold, hnew, hafter⟩ := held_insertRoute_split hw h hmem
  obtain ⟨-, -, -, -, hreport⟩ := BgpRib.insertRoute_ok h
  have hne : rib'.held router route.pfx ≠ [] := by simp [hnew]
  obtain ⟨best, hbest⟩ := BestRoute.exists_calculate hne
  have hlast := BestRoute.calculate_eq_some_iff.mp hbest
  rw [hnew] at hlast
  -- The best route changed, so the inserted route took the maximum.
  have hself : best.route = route := by
    rcases lastMax_insert_cases Route.cmp hlast with hself | hrest
    · exact hself
    · rw [← hold] at hrest
      exact absurd (hbest.trans (BestRoute.calculate_eq_some_iff.mpr hrest).symm) hchange
  rw [hold, List.mem_append, not_or] at hmem
  rw [hself] at hlast
  obtain ⟨hle, hgt⟩ := (lastMax_insert_eq_self_iff Route.cmp hmem.1 hmem.2).mp hlast
  have hheld : ∀ y ∈ rib.held router route.pfx, (y.cmp route).isLE := by
    intro y hy
    refine lastMax_isLE Route.cmp hlast ?_
    rw [hold] at hy
    rcases List.mem_append.mp hy with hy | hy <;> simp [hy]
  have hall : ∀ x ∈ rib.stored route.pfx, (x.cmp route).isLE := by
    rcases hcond with hin | ⟨y, hy, hygt⟩ | ⟨y, hy, hdrop, hyeq⟩ | hall
    · rw [hold] at hin
      exact absurd (List.mem_append.mp hin) (not_or.mpr hmem)
    · exact absurd hygt (Ordering.isLE_iff_ne_gt.mp (hheld y hy))
    · rw [hold] at hy
      have hygt := Std.OrientedCmp.lt_of_gt (hgt y ((hafter y hy).mpr hdrop))
      rw [hyeq] at hygt
      cases hygt
    · exact hall
  refine ⟨best, hbest, ?_⟩
  rw [hreport, if_pos hall, ← hself]
  rfl

theorem notOutranked_of_reportsChange (hw : WellFormed rib)
    (h : rib.insertRoute route router = .ok (rib', report))
    (hreports : ReportsChange rib rib' router route report) : NotOutranked rib router route := by
  by_contra hcond
  simp only [NotOutranked, not_or] at hcond
  obtain ⟨hmem, hbetter, htie, hall⟩ := hcond
  obtain ⟨before, after, hold, hnew, hafter⟩ := held_insertRoute_split hw h hmem
  obtain ⟨-, -, -, -, hreport⟩ := BgpRib.insertRoute_ok h
  rw [if_neg hall] at hreport
  have hle : ∀ y ∈ before ++ after, (y.cmp route).isLE := by
    intro y hy
    refine Ordering.isLE_iff_ne_gt.mpr (fun hgt => hbetter ⟨y, ?_, hgt⟩)
    rw [hold]
    exact hy
  have hgt : ∀ y ∈ after, route.cmp y = .gt := by
    intro y hy
    have hy' : y ∈ before ++ after := List.mem_append_right _ hy
    have hne : y.cmp route ≠ .eq := by
      intro heq
      refine htie ⟨y, ?_, (hafter y hy').mp hy, heq⟩
      rw [hold]
      exact hy'
    exact gt_of_isLE_of_ne Route.cmp (hle y hy') hne
  have hmem' := hmem
  rw [hold, List.mem_append, not_or] at hmem'
  have hbest : rib'.best router route.pfx = some (.ofRoute route) := by
    refine BestRoute.calculate_eq_some_iff.mpr ?_
    rw [hnew]
    exact (lastMax_insert_eq_self_iff Route.cmp hmem'.1 hmem'.2).mpr
      ⟨fun x hx => hle x (List.mem_append_left _ hx), hgt⟩
  have hchange : rib'.best router route.pfx ≠ rib.best router route.pfx := by
    intro heq
    rw [hbest] at heq
    exact hmem (BestRoute.calculate_mem heq.symm)
  obtain ⟨best, -, hsome⟩ := hreports hchange
  rw [hreport] at hsome
  cases hsome

end Insertion

/-- In every reachable RIB an insertion reports the inserting router's change exactly when
no route held only by others outranks the new one. -/
theorem reportsChange_iff_notOutranked {ops : List BgpRib.Op} {rib rib' : BgpRib}
    {route : Route} {router : Uuid} {report : Option BestRoute}
    (h : BgpRib.new.run ops = .ok rib)
    (hinsert : rib.insertRoute route router = .ok (rib', report)) :
    ReportsChange rib rib' router route report ↔ NotOutranked rib router route :=
  ⟨notOutranked_of_reportsChange (wellFormed_run wellFormed_new h) hinsert,
    reportsChange_of_notOutranked (wellFormed_run wellFormed_new h) hinsert⟩

/-- Router 2 stores a route with a path of length one. -/
def shorterElsewhereOps : List BgpRib.Op := [.insertRoute (.sample 2 8 "10.0.0.2" [65002]) 2]

theorem reportsChange_iff_notOutranked_elsewhere :
    ∃ rib rib' report, BgpRib.new.run shorterElsewhereOps = .ok rib ∧
      rib.insertRoute (.sample 1 8 "10.0.0.1" [65001]) 2 = .ok (rib', report) ∧
      (ReportsChange rib rib' 2 (.sample 1 8 "10.0.0.1" [65001]) report ↔
        NotOutranked rib 2 (.sample 1 8 "10.0.0.1" [65001])) :=
  ⟨_, _, _, rfl, rfl,
    reportsChange_iff_notOutranked (show BgpRib.new.run shorterElsewhereOps = .ok _ from rfl) rfl⟩

/-- Router 1 gets its first route to the prefix and nothing is reported. -/
theorem not_reportsChange_elsewhere :
    ∃ rib rib' report, BgpRib.new.run shorterElsewhereOps = .ok rib ∧
      rib.insertRoute (.sample 1 8 "10.0.0.1" [65003, 65001]) 1 = .ok (rib', report) ∧
      report = none ∧
      ¬ ReportsChange rib rib' 1 (.sample 1 8 "10.0.0.1" [65003, 65001]) report := by
  refine ⟨_, _, _, rfl, rfl, by decide, ?_⟩
  intro h
  obtain ⟨best, -, hreport⟩ := h (by decide)
  exact Option.some_ne_none best (hreport.symm.trans (by decide))

end NetfabricBgp.ChangeReports
