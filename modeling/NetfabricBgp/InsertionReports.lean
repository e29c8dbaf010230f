import NetfabricBgp.RibInvariants

/-!
What an insertion reports about a route the RIB may already store. The report judges the
route as if it came last, while the stored route keeps its old place, so a route that ties
with it and stands behind it is the best one although the insertion reports the other.
-/
namespace NetfabricBgp.InsertionReports

open LastMaximum Addresses NetworkTables Routes RouterMasks RibEntries Ribs RibInvariants

/-- A sublist is split at one of its members the way the whole list is. -/
theorem exists_split_of_sublist {α : Type*} [DecidableEq α] {l whole : List α} {x : α}
    (hdistinct : whole.Nodup) (hl : l.Sublist whole) (hx : x ∈ l) :
    ∃ before after, l = before ++ x :: after ∧ x ∉ before ∧ x ∉ after ∧
      ∀ y ∈ before ++ after, (y ∈ after ↔ y ∈ whole.dropWhile (· ≠ x)) := by
  obtain ⟨first, last, rfl⟩ := List.append_of_mem (hl.subset hx)
  obtain ⟨hfirst, hlast, hapart⟩ := List.nodup_append.mp hdistinct
  have hnotFirst : x ∉ first := fun hmem => hapart x hmem x (by simp) rfl
  have hnotLast : x ∉ last := (List.nodup_cons.mp hlast).1
  obtain ⟨before, rest, rfl, hbefore, hrest⟩ := List.sublist_append_iff.mp hl
  have hxrest : x ∈ rest := by
    rcases List.mem_append.mp hx with hmem | hmem
    · exact absurd (hbefore.subset hmem) hnotFirst
    · exact hmem
  rcases List.sublist_cons_iff.mp hrest with hsub | ⟨after, rfl, hafter⟩
  · exact absurd (hsub.subset hxrest) hnotLast
  refine ⟨before, after, rfl, fun h => hnotFirst (hbefore.subset h),
    fun h => hnotLast (hafter.subset h), ?_⟩
  intro y hy
  rw [dropWhile_ne_of_nodup hdistinct]
  constructor
  · exact fun h => List.mem_cons_of_mem x (hafter.subset h)
  · intro h
    refine (List.mem_append.mp hy).resolve_left (fun hmem => ?_)
    exact hapart y (hbefore.subset hmem) y h rfl

section Insertion
variable {rib rib' : BgpRib} {router : Uuid} {route : Route} {report : Option BestRoute}

theorem held_sublist_stored (rib : BgpRib) (router : Uuid) (network : IpNetwork) :
    (rib.held router network).Sublist (rib.stored network) := by
  rw [BgpRib.held_eq_entryAt, BgpRib.stored_eq_entryAt]
  exact List.filter_sublist.map Prod.snd

/-- After an insertion the route stands once in the router's view, and exactly the other
routes that are stored behind it stand behind it. -/
theorem held_insertRoute_around (hw : WellFormed rib)
    (h : rib.insertRoute route router = .ok (rib', report)) :
    ∃ before after, rib'.held router route.pfx = before ++ route :: after ∧
      route ∉ before ∧ route ∉ after ∧
      (∀ y, y ∈ before ++ after ↔ y ∈ rib.held router route.pfx ∧ y ≠ route) ∧
      ∀ y ∈ before ++ after, (y ∈ after ↔ y ∈ (rib.stored route.pfx).dropWhile (· ≠ route)) := by
  by_cases hmem : route ∈ rib.held router route.pfx
  · obtain ⟨before, after, hsplit, hbefore, hafter, hbehind⟩ := exists_split_of_sublist
      (nodup_stored hw route.pfx) (held_sublist_stored rib router route.pfx) hmem
    refine ⟨before, after, (held_insertRoute_of_mem hw h hmem).trans hsplit, hbefore, hafter, ?_,
      hbehind⟩
    intro y
    rw [hsplit]
    simp only [List.mem_append, List.mem_cons]
    by_cases hy : y = route
    · subst hy
      simp [hbefore, hafter]
    · simp [hy]
  · obtain ⟨before, after, hold, hnew, hbehind⟩ := held_insertRoute_split hw h hmem
    have hnot := hmem
    rw [hold, List.mem_append, not_or] at hnot
    refine ⟨before, after, hnew, hnot.1, hnot.2, ?_, hbehind⟩
    intro y
    rw [hold]
    refine ⟨fun hy => ⟨hy, ?_⟩, fun hy => hy.1⟩
    rintro rfl
    exact hmem (hold ▸ hy)

theorem insertRoute_report (h : rib.insertRoute route router = .ok (rib', report)) :
    (report = none ∧ ∃ x ∈ rib.stored route.pfx, x.cmp route = .gt) ∨
      (report = some (.ofRoute route) ∧ ∀ x ∈ rib.stored route.pfx, (x.cmp route).isLE) := by
  obtain ⟨-, -, -, -, hreport⟩ := BgpRib.insertRoute_ok h
  by_cases hall : ∀ x ∈ rib.stored route.pfx, (x.cmp route).isLE
  · exact Or.inr ⟨hreport.trans (if_pos hall), hall⟩
  · refine Or.inl ⟨hreport.trans (if_neg hall), ?_⟩
    by_contra hnone
    apply hall
    intro x hx
    exact Ordering.isLE_iff_ne_gt.mpr (fun hgt => hnone ⟨x, hx, hgt⟩)

/-- An inserted route that no stored route exceeds is the best one afterwards exactly when no
route of the router that is stored behind it ties with it. -/
theorem best_insertRoute_iff (hw : WellFormed rib)
    (h : rib.insertRoute route router = .ok (rib', report))
    (hall : ∀ x ∈ rib.stored route.pfx, (x.cmp route).isLE) :
    rib'.best router route.pfx = some (.ofRoute route) ↔
      ∀ y ∈ rib.held router route.pfx, y ≠ route →
        y ∈ (rib.stored route.pfx).dropWhile (· ≠ route) → y.cmp route ≠ .eq := by
  obtain ⟨before, after, hnew, hbefore, hafter, hmem, hbehind⟩ := held_insertRoute_around hw h
  have hle : ∀ y ∈ before ++ after, (y.cmp route).isLE := by
    intro y hy
    exact hall y ((held_sublist_stored rib router route.pfx).subset ((hmem y).mp hy).1)
  rw [BgpRib.best, BestRoute.calculate_eq_some_iff, BestRoute.ofRoute, hnew,
    lastMax_insert_eq_self_iff Route.cmp hbefore hafter]
  constructor
  · rintro ⟨-, hgt⟩ y hy hne hdrop heq
    have hy' := (hmem y).mpr ⟨hy, hne⟩
    have hlt := Std.OrientedCmp.lt_of_gt (hgt y ((hbehind y hy').mpr hdrop))
    rw [heq] at hlt
    cases hlt
  · intro htie
    refine ⟨fun x hx => hle x (List.mem_append_left _ hx), ?_⟩
    intro y hy
    have hy' := List.mem_append_right before hy
    obtain ⟨hheld, hne⟩ := (hmem y).mp hy'
    exact gt_of_isLE_of_ne Route.cmp (hle y hy') (htie y hheld hne ((hbehind y hy').mp hy))

end Insertion

/-- In every reachable RIB a reported route is the inserting router's best route afterwards
exactly when a stored route outranks it, so that nothing is reported, or no route of the
router that is stored behind it ties with it. -/
theorem reported_is_best_iff {ops : List BgpRib.Op} {rib rib' : BgpRib} {route : Route}
    {router : Uuid} {report : Option BestRoute} (h : BgpRib.new.run ops = .ok rib)
    (hinsert : rib.insertRoute route router = .ok (rib', report)) :
    (∀ best, report = some best → rib'.best router route.pfx = some best) ↔
      (∃ x ∈ rib.stored route.pfx, x.cmp route = .gt) ∨
        ∀ y ∈ rib.held router route.pfx, y ≠ route →
          y ∈ (rib.stored route.pfx).dropWhile (· ≠ route) → y.cmp route ≠ .eq := by
  have hw := wellFormed_run wellFormed_new h
  rcases insertRoute_report hinsert with ⟨rfl, hgt⟩ | ⟨rfl, hall⟩
  · simp only [reduceCtorEq, false_implies, implies_true, true_iff]
    exact Or.inl hgt
  · rw [← best_insertRoute_iff hw hinsert hall]
    constructor
    · exact fun hbest => Or.inr (hbest _ rfl)
    · rintro (⟨x, hx, hgt⟩ | hbest) best hreport
      · exact absurd hgt (Ordering.isLE_iff_ne_gt.mp (hall x hx))
      · rw [← hreport]
        exact hbest

/-- Router 1 stores two routes that tie, the peer and the length of the path being equal. -/
def tiedOps : List BgpRib.Op :=
  [.insertRoute (.sample 1 8 "10.0.0.1" [65001]) 1, .insertRoute (.sample 1 8 "10.0.0.2" [65002]) 1]

theorem reported_is_best_iff_tied :
    ∃ rib rib' report, BgpRib.new.run tiedOps = .ok rib ∧
      rib.insertRoute (.sample 2 8 "10.0.0.3" [65003]) 1 = .ok (rib', report) ∧
      ((∀ best, report = some best → rib'.best 1 (Route.sample 2 8 "10.0.0.3" [65003]).pfx =
          some best) ↔
        (∃ x ∈ rib.stored (Route.sample 2 8 "10.0.0.3" [65003]).pfx,
          x.cmp (.sample 2 8 "10.0.0.3" [65003]) = .gt) ∨
        ∀ y ∈ rib.held 1 (Route.sample 2 8 "10.0.0.3" [65003]).pfx,
          y ≠ .sample 2 8 "10.0.0.3" [65003] →
            y ∈ (rib.stored (Route.sample 2 8 "10.0.0.3" [65003]).pfx).dropWhile
              (· ≠ .sample 2 8 "10.0.0.3" [65003]) →
              y.cmp (.sample 2 8 "10.0.0.3" [65003]) ≠ .eq) :=
  ⟨_, _, _, rfl, rfl, reported_is_best_iff (show BgpRib.new.run tiedOps = .ok _ from rfl) rfl⟩

/-- The first of the tied routes comes again and is reported, but the second is the best. -/
theorem reported_not_best_tied :
    ∃ rib rib', BgpRib.new.run tiedOps = .ok rib ∧
      rib.insertRoute (.sample 1 8 "10.0.0.1" [65001]) 1 =
        .ok (rib', some (.ofRoute (.sample 1 8 "10.0.0.1" [65001]))) ∧
      rib'.best 1 (Route.sample 1 8 "10.0.0.1" [65001]).pfx =
        some (.ofRoute (.sample 1 8 "10.0.0.2" [65002])) ∧
      ¬ ∀ best, some (BestRoute.ofRoute (.sample 1 8 "10.0.0.1" [65001])) = some best →
        rib'.best 1 (Route.sample 1 8 "10.0.0.1" [65001]).pfx = some best := by
  refine ⟨_, _, rfl, rfl, by decide, ?_⟩
  intro h
  exact absurd (h _ rfl) (by decide)

section Reinsertion
variable {rib : BgpRib} {router : Uuid} {route : Route}

/-- A router that holds a route is registered. -/
theorem get_of_held (hw : WellFormed rib) {network : IpNetwork}
    (h : route ∈ rib.held router network) :
    ∃ i, i < 64 ∧ rib.routerMaskMap.get router = .ok (rib.routerMaskMap, .ofBit i) ∧
      rib.routerMaskMap.tryGet router = .ofBit i := by
  cases hlookup : rib.routerMaskMap.map.lookup router with
  | none =>
    rw [BgpRib.held_eq_entryAt, RouterMaskMap.tryGet_of_none hw.masks hlookup,
      BgpRibEntry.getWithMask_default] at h
    cases h
  | some mask =>
    obtain ⟨i, hi, rfl⟩ := hw.masks.one_bit router mask hlookup
    exact ⟨i, hi, RouterMaskMap.get_of_lookup hlookup, RouterMaskMap.tryGet_of_lookup hlookup⟩

/-- Inserting a route its router already holds leaves the whole RIB as it is. -/
theorem insertRoute_of_held (hw : WellFormed rib) (h : route ∈ rib.held router route.pfx) :
    ∃ report, rib.insertRoute route router = .ok (rib, report) := by
  obtain ⟨i, hi, hget, hself⟩ := get_of_held hw h
  cases hentry : rib.treebitmap.exactMatch route.pfx with
  | none => simp [BgpRib.held, hentry] at h
  | some entry =>
    have hat : rib.entryAt route.pfx = entry := by simp [BgpRib.entryAt, hentry]
    rw [BgpRib.held_eq_entryAt, hself, hat] at h
    have hsame : entry.insert (.ofBit i) route = entry :=
      BgpRibEntry.insert_of_mem hi (hat ▸ hw.entries route.pfx).distinct h
    simp only [BgpRib.insertRoute, hget, hentry, hsame, IpNetworkTable.insert_of_exactMatch hentry]
    exact ⟨_, rfl⟩

end Reinsertion

/-- In every reachable RIB a route that its router already holds is taken in without a trace,
and nothing is reported exactly when some stored route outranks it. -/
theorem reinsert_silent_iff {ops : List BgpRib.Op} {rib : BgpRib} {route : Route} {router : Uuid}
    (h : BgpRib.new.run ops = .ok rib) (hheld : route ∈ rib.held router route.pfx) :
    (∃ report, rib.insertRoute route router = .ok (rib, report)) ∧
      (rib.insertRoute route router = .ok (rib, none) ↔
        ∃ x ∈ rib.stored route.pfx, x.cmp route = .gt) := by
  have hw := wellFormed_run wellFormed_new h
  obtain ⟨report, hinsert⟩ := insertRoute_of_held hw hheld
  refine ⟨⟨report, hinsert⟩, ?_⟩
  rcases insertRoute_report hinsert with ⟨rfl, hgt⟩ | ⟨rfl, hall⟩
  · exact ⟨fun _ => hgt, fun _ => hinsert⟩
  · constructor
    · intro hnone
      rw [hinsert] at hnone
      cases hnone
    · rintro ⟨x, hx, hgt⟩
      exact absurd hgt (Ordering.isLE_iff_ne_gt.mp (hall x hx))

theorem reinsert_silent_iff_tied :
    ∃ rib, BgpRib.new.run tiedOps = .ok rib ∧
      (rib.insertRoute (.sample 1 8 "10.0.0.2" [65002]) 1 = .ok (rib, none) ↔
        ∃ x ∈ rib.stored (Route.sample 1 8 "10.0.0.2" [65002]).pfx,
          x.cmp (.sample 1 8 "10.0.0.2" [65002]) = .gt) :=
  ⟨_, rfl, (reinsert_silent_iff (show BgpRib.new.run tiedOps = .ok _ from rfl) (by decide)).2⟩

/-- The best route comes again and is reported as a new best route. -/
theorem reinsert_not_silent_best :
    ∃ rib, BgpRib.new.run tiedOps = .ok rib ∧
      Route.sample 1 8 "10.0.0.2" [65002] ∈
        rib.held 1 (Route.sample 1 8 "10.0.0.2" [65002]).pfx ∧
      rib.insertRoute (.sample 1 8 "10.0.0.2" [65002]) 1 =
        .ok (rib, some (.ofRoute (.sample 1 8 "10.0.0.2" [65002]))) ∧
      rib.insertRoute (.sample 1 8 "10.0.0.2" [65002]) 1 ≠ .ok (rib, none) := by
  obtain ⟨rib, hrun, hheld, hall⟩ : ∃ rib, BgpRib.new.run tiedOps = .ok rib ∧
      Route.sample 1 8 "10.0.0.2" [65002] ∈
        rib.held 1 (Route.sample 1 8 "10.0.0.2" [65002]).pfx ∧
      ∀ x ∈ rib.stored (Route.sample 1 8 "10.0.0.2" [65002]).pfx,
        (x.cmp (.sample 1 8 "10.0.0.2" [65002])).isLE :=
    ⟨_, rfl, by decide, by decide⟩
  obtain ⟨report, hinsert⟩ := insertRoute_of_held (wellFormed_run wellFormed_new hrun) hheld
  obtain ⟨-, -, -, -, hreport⟩ := BgpRib.insertRoute_ok hinsert
  rw [if_pos hall] at hreport
  subst hreport
  refine ⟨rib, hrun, hheld, hinsert, ?_⟩
  rw [hinsert]
  intro hnone
  cases hnone

end NetfabricBgp.InsertionReports
