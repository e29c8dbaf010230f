import NetfabricBgp.ClientTables
import NetfabricBgp.Processes

/-!
Which changes of best routes a withdrawal reports. A removal finds its routes by peer and
prefix but reports only a best route that equals the decoded withdrawal in all fields,
and a decoded withdrawal has no next hop and the path of the withdrawing message.
-/
namespace NetfabricBgp.WithdrawalReports

open Addresses Routes RouterMasks Ribs KeyedLog Advertisements Channels RibInterfaces Processes
  ClientTables

/-- A best route that changes by the removal is reported: by the call itself, among the
collected withdrawals, and in the next generated advertisement. -/
def ReportsWithdrawal (forms : TextForms) (id : Uuid) (before after : BgpRib) (route : Route)
    (report : Option BestRoute) (self : BgpRibInterface) : Prop :=
  after.best id route.pfx ≠ before.best id route.pfx →
    ∃ prev, before.best id route.pfx = some prev ∧ report = some prev ∧
      prev ∈ self.bestrouteUpdates.2 ∧
      ∀ (process : BgpProcess) (timestamp : UInt64), process.ribInterface = self →
        ∃ advertisement withdrawals,
          (process.getBestRouteChanges.generateAdvertisement forms timestamp).advertisement =
            process.advertisement ++ [advertisement] ∧
          advertisement.withdrawals = some withdrawals ∧
          forms.networkToString prev.route.pfx ∈ withdrawals

/-- The best route at the prefix is of another peer, or it already looks like a decoded
withdrawal of this message. -/
def BestLooksWithdrawn (rib : BgpRib) (id : Uuid) (route : Route) (path : Option Path) : Prop :=
  ∀ prev, rib.best id route.pfx = some prev → prev.route.peer = route.peer →
    prev.route.nextHop = "" ∧ prev.route.asPath = path.getD []

/-- Collected withdrawals are in the next generated advertisement. -/
theorem generated_withdrawal (forms : TextForms) {self : BgpRibInterface} {best : BestRoute}
    (h : best ∈ self.bestrouteUpdates.2) (process : BgpProcess) (timestamp : UInt64)
    (hprocess : process.ribInterface = self) :
    ∃ advertisement withdrawals,
      (process.getBestRouteChanges.generateAdvertisement forms timestamp).advertisement =
        process.advertisement ++ [advertisement] ∧
      advertisement.withdrawals = some withdrawals ∧
      forms.networkToString best.route.pfx ∈ withdrawals := by
  refine ⟨_, _, rfl, rfl, ?_⟩
  apply List.mem_map_of_mem (f := fun best : BestRoute => forms.networkToString best.route.pfx)
  subst hprocess
  exact h

section Removal
variable {forms : TextForms} {rib : BgpRib} {id : Uuid} {table : List Route} {route : Route}
  {advertisement : Advertisement}

/-- On a client's own RIB the best route changes exactly when its peer withdraws it. -/
theorem best_changes_iff {after : BgpRib} (h : Represents rib id table)
    (hafter : Represents after id (next Route.key table (.retract route))) :
    after.best id route.pfx ≠ rib.best id route.pfx ↔
      ∃ prev, rib.best id route.pfx = some prev ∧ prev.route.peer = route.peer := by
  rw [hafter.best, h.best, routesAt_retract_self, BestRoute.calculate_filter_ne_iff]
  refine exists_congr fun prev => and_congr_right fun hprev => ?_
  have hpfx := (mem_routesAt.mp (BestRoute.calculate_mem hprev)).2
  simp [Route.key, hpfx]

/-- The best route looks like a decoded withdrawal exactly when it is that withdrawal. -/
theorem eq_of_looksWithdrawn {prev : BestRoute}
    (hroute : route ∈ advertisement.getWithdrawals forms) (hpfx : prev.route.pfx = route.pfx)
    (hpeer : prev.route.peer = route.peer) :
    (prev.route.nextHop = "" ∧ prev.route.asPath = advertisement.path.getD []) ↔
      prev = .ofRoute route := by
  obtain ⟨hhop, hpath⟩ := Advertisement.mem_getWithdrawals forms hroute
  obtain ⟨⟨peer, pfx, nextHop, asPath⟩⟩ := prev
  obtain ⟨peer', pfx', nextHop', asPath'⟩ := route
  simp only at hhop hpath hpfx hpeer
  subst hhop hpath hpfx hpeer
  simp [BestRoute.ofRoute]

/-- The step lemma: one removal, on the RIB as the earlier entries left it. -/
theorem reportsWithdrawal_step {after : BgpRib} {report : Option BestRoute}
    {self : BgpRibInterface} (h : Represents rib id table)
    (hafter : Represents after id (next Route.key table (.retract route)))
    (hremove : rib.removeRoute route id = .ok (after, report))
    (hroute : route ∈ advertisement.getWithdrawals forms)
    (hcollected : IsBest table route → .ofRoute route ∈ self.bestrouteUpdates.2) :
    ReportsWithdrawal forms id rib after route report self ↔
      BestLooksWithdrawn rib id route advertisement.path := by
  have hpfx : ∀ prev, rib.best id route.pfx = some prev → prev.route.pfx = route.pfx := by
    intro prev hprev
    rw [h.best] at hprev
    exact (mem_routesAt.mp (BestRoute.calculate_mem hprev)).2
  constructor
  · intro hreports prev hprev hpeer
    obtain ⟨prev', hprev', hreport, -⟩ :=
      hreports ((best_changes_iff h hafter).mpr ⟨prev, hprev, hpeer⟩)
    obtain rfl : prev = prev' := Option.some.inj (hprev.symm.trans hprev')
    have hself := ((h.removeRoute_eq_some_iff hremove).mp hreport).2
    exact (eq_of_looksWithdrawn hroute (hpfx prev hprev) hpeer).mpr hself
  · intro hlooks hchanged
    obtain ⟨prev, hprev, hpeer⟩ := (best_changes_iff h hafter).mp hchanged
    have hself := (eq_of_looksWithdrawn hroute (hpfx prev hprev) hpeer).mp
      (hlooks prev hprev hpeer)
    have hbest : IsBest table route := by
      unfold IsBest
      rw [← h.best, hprev, hself]
    have hmem := hcollected hbest
    rw [← hself] at hmem
    exact ⟨prev, hprev, (h.removeRoute_eq_some_iff hremove).mpr ⟨hbest, hself⟩, hmem,
      generated_withdrawal forms hmem⟩

end Removal

/-- For every history of one client and every withdrawal of a further advertisement: the
change of the best route is reported exactly when that route is of another peer, or has an
empty next hop and the path of the withdrawing message. -/
theorem reportsWithdrawal_iff_looksWithdrawn (forms : TextForms) {start : BgpRib}
    {client : BgpRibInterface} (h : StartsEmpty start client.clientId)
    (calls : List (List (LockAttempt × Advertisement))) (advertisement : Advertisement)
    {earlier later : List Route} {route : Route}
    (hroute : advertisement.getWithdrawals forms = earlier ++ route :: later) :
    ∃ rib self before changes after report rib' self',
      BgpRibInterface.updateAll forms (start, client) calls = .ok (rib, self) ∧
      Runs.collect (handle client.clientId) rib
        ((advertisement.getAnnouncements forms).map .add ++ earlier.map .retract) =
          .ok (before, changes) ∧
      before.removeRoute route client.clientId = .ok (after, report) ∧
      self.update forms rib [(.acquired, advertisement)] = .ok (rib', self') ∧
      (ReportsWithdrawal forms client.clientId before after route report self' ↔
        BestLooksWithdrawn before client.clientId route advertisement.path) := by
  obtain ⟨rib, hall, hrib⟩ := updateAll_represents forms h calls
  obtain ⟨before, hbefore, htable⟩ :=
    hrib.run ((advertisement.getAnnouncements forms).map .add ++ earlier.map .retract)
  obtain ⟨after, hstep, hafter⟩ := htable.step (.retract route)
  obtain ⟨report, hremove, -⟩ := removeRoute_of_handle hstep
  obtain ⟨rib', -, hupdate, -⟩ := Represents.update (client.record _) hrib forms
    [(.acquired, advertisement)]
  refine ⟨rib, _, before, _, after, report, rib', _, hall, hbefore, hremove, hupdate, ?_⟩
  have hmem : route ∈ advertisement.getWithdrawals forms := by simp [hroute]
  refine reportsWithdrawal_step htable hafter hremove hmem ?_
  intro hbest
  have hentries : entriesOf forms [(.acquired, advertisement)] =
      ((advertisement.getAnnouncements forms).map .add ++ earlier.map .retract) ++
        .retract route :: later.map .retract := by
    simp [entriesOf_single, Advertisement.entries, hroute]
  exact List.mem_append_right _ (mem_retracted.mpr
    (Runs.mem_outputs_iff.mpr ⟨_, _, _, hentries, if_pos hbest⟩))

/-- The withdrawal of 10.0.0.0/8 by the peer 10.0.0.1, as it is decoded. -/
def decodedWithdrawal : Route := .sample 0x0A000001#32 8 "" [65001]

theorem reportsWithdrawal_iff_looksWithdrawn_sample :
    ∃ rib self before changes after report rib' self',
      BgpRibInterface.updateAll .sample (BgpRib.new, ⟨1, [], []⟩)
        [[(.acquired, .sample "10.0.0.1" "" [65001] true false)]] = .ok (rib, self) ∧
      Runs.collect (handle 1) rib
        (((Advertisement.sample "10.0.0.1" "" [65001] false true).getAnnouncements .sample).map
          .add ++ [].map .retract) = .ok (before, changes) ∧
      before.removeRoute decodedWithdrawal 1 = .ok (after, report) ∧
      self.update .sample rib [(.acquired, .sample "10.0.0.1" "" [65001] false true)] =
        .ok (rib', self') ∧
      (ReportsWithdrawal .sample 1 before after decodedWithdrawal report self' ↔
        BestLooksWithdrawn before 1 decodedWithdrawal (some [.ASN 65001])) :=
  @reportsWithdrawal_iff_looksWithdrawn .sample BgpRib.new ⟨1, [], []⟩ ⟨[], rfl, by decide⟩ _
    (.sample "10.0.0.1" "" [65001] false true) _ _ _ rfl

/-- A best route with a next hop is withdrawn by its peer, and nothing is reported. -/
theorem not_reportsWithdrawal_nextHop :
    ∃ rib self before changes after report rib' self',
      BgpRibInterface.updateAll .sample (BgpRib.new, ⟨1, [], []⟩)
        [[(.acquired, .sample "10.0.0.1" "10.0.0.1" [65001] true false)]] = .ok (rib, self) ∧
      Runs.collect (handle 1) rib
        (((Advertisement.sample "10.0.0.1" "" [65001] false true).getAnnouncements .sample).map
          .add) = .ok (before, changes) ∧
      before.removeRoute decodedWithdrawal 1 = .ok (after, report) ∧
      self.update .sample rib [(.acquired, .sample "10.0.0.1" "" [65001] false true)] =
        .ok (rib', self') ∧
      report = none ∧ self'.bestrouteUpdates.2 = [] ∧
      ¬ ReportsWithdrawal .sample 1 before after decodedWithdrawal report self' := by
  refine ⟨_, _, _, _, _, _, _, _, rfl, rfl, rfl, rfl, rfl, rfl, ?_⟩
  intro hreports
  obtain ⟨prev, -, hreport, -⟩ := hreports (by decide)
  exact Option.some_ne_none prev (hreport.symm.trans rfl)

end NetfabricBgp.WithdrawalReports
