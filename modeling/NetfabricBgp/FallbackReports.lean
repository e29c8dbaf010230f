import NetfabricBgp.TableChanges

/-!
Whether the route that takes over from a withdrawn best route is announced. A removal
reports the old best route at most, so the new one is announced only if the update itself
announced it unbeaten, and the neighbour keeps the prefix only if no reported withdrawal
is the last report there.
-/
namespace NetfabricBgp.FallbackReports

open Addresses Routes RouterMasks Ribs KeyedLog Advertisements Channels RibInterfaces Processes
  ClientTables NeighbourReplays TableChanges

/-- Some route that is the client's best at the prefix while a batch is processed is withdrawn
later in the batch. -/
def BestWithdrawn (id : Uuid) (rib : BgpRib) (batch : List (Entry Route)) (network : IpNetwork) :
    Prop :=
  ∃ before between route after rib' changes prev,
    batch = before ++ (between ++ .retract route :: after) ∧
    Runs.collect (handle id) rib before = .ok (rib', changes) ∧
    rib'.best id network = some prev ∧ prev.route.key = route.key

/-- The best route is among the collected announcements and in the generated advertisement,
and the neighbour that replayed the changes in their order reaches the prefix. -/
structure ReportsFallback (forms : TextForms) (process : BgpProcess) (neighbourRib : BgpRib)
    (neighbour : Uuid) (network : IpNetwork) (best : BestRoute) : Prop where
  collected : best ∈ process.ribInterface.bestrouteUpdates.1
  advertised : ∀ timestamp, ∃ announcements,
    (process.getBestRouteChanges.nextAdvertisement forms timestamp).announcements =
      some announcements ∧
    ⟨best.route.nextHop, [forms.networkToString network]⟩ ∈ announcements
  reached : Reaches neighbourRib neighbour process.config.ip network

/-- Every prefix the client holds is reached by the neighbour. -/
def CoversHeld (rib : BgpRib) (id : Uuid) (neighbourRib : BgpRib) (neighbour : Uuid)
    (sender : IpAddr) : Prop :=
  ∀ network, rib.held id network ≠ [] → Reaches neighbourRib neighbour sender network

theorem generated_announcement (forms : TextForms) {process : BgpProcess} {best : BestRoute}
    (h : best ∈ process.ribInterface.bestrouteUpdates.1) (timestamp : UInt64) :
    ∃ announcements,
      (process.getBestRouteChanges.nextAdvertisement forms timestamp).announcements =
        some announcements ∧
      ⟨best.route.nextHop, [forms.networkToString best.route.pfx]⟩ ∈ announcements := by
  refine ⟨_, rfl, ?_⟩
  exact List.mem_map_of_mem (f := fun best : BestRoute =>
    (⟨best.route.nextHop, [forms.networkToString best.route.pfx]⟩ : Announcement)) h

section Replay
variable {table : List Route} {batch : List (Entry Route)} {neighbourRib replayedRib : BgpRib}
  {neighbour : Uuid} {sender : IpAddr} {reports : List (Entry BestRoute)}

/-- A replay of the changes of a batch, prefix by prefix. -/
theorem reaches_changesOf (hneighbour : Registered neighbourRib neighbour)
    (hreplay : Runs.collect (handle neighbour) neighbourRib
      ((changesOf table batch).map (relayed sender)) = .ok (replayedRib, reports))
    (network : IpNetwork) :
    Reaches replayedRib neighbour sender network ↔
      EndsAnnounced table batch network ∨
        (Reaches neighbourRib neighbour sender network ∧ ¬ WithdrawsBest table batch network) := by
  obtain ⟨rib, reports', hrun, hreaches⟩ :=
    reaches_replay hneighbour sender (changesOf table batch)
  obtain ⟨rfl, -⟩ := Prod.mk.inj (Except.ok.inj (hrun.symm.trans hreplay))
  rw [hreaches, Present, exists_live_changesOf, not_retract_mem_changesOf]

/-- After an unbeaten announcement only a later reported withdrawal can lose the prefix. -/
theorem reaches_iff_endsAnnounced (hneighbour : Registered neighbourRib neighbour)
    (hreplay : Runs.collect (handle neighbour) neighbourRib
      ((changesOf table batch).map (relayed sender)) = .ok (replayedRib, reports))
    {best : BestRoute} (hbest : AnnouncesUnbeaten table batch best.route) :
    Reaches replayedRib neighbour sender best.route.pfx ↔
      EndsAnnounced table batch best.route.pfx := by
  rw [reaches_changesOf hneighbour hreplay]
  constructor
  · intro h
    rcases h with hends | ⟨-, hnever⟩
    · exact hends
    · rw [← not_retract_mem_changesOf] at hnever
      exact exists_live_changesOf.mp
        ⟨best, live_of_not_retracted prefixOf (add_mem_changesOf.mpr hbest) hnever, rfl⟩
  · exact Or.inl

end Replay

/-- The property and the condition at one prefix, after one update of the client. -/
theorem reportsFallback_at {forms : TextForms} {process : BgpProcess} {id : Uuid} {rib' : BgpRib}
    {table : List Route} {batch : List (Entry Route)} {neighbourRib replayedRib : BgpRib}
    {neighbour : Uuid} {reports : List (Entry BestRoute)}
    (hrib' : Represents rib' id (tableAfter table batch))
    (hcollected : process.ribInterface.bestrouteUpdates.1 = added (changesOf table batch))
    (hneighbour : Registered neighbourRib neighbour)
    (hreplay : Runs.collect (handle neighbour) neighbourRib
      ((changesOf table batch).map (relayed process.config.ip)) = .ok (replayedRib, reports))
    {network : IpNetwork} {best : BestRoute} (hbest : rib'.best id network = some best) :
    ReportsFallback forms process replayedRib neighbour network best ↔
      AnnouncesUnbeaten table batch best.route ∧ EndsAnnounced table batch network := by
  obtain rfl : best.route.pfx = network := by
    rw [hrib'.best] at hbest
    exact (mem_routesAt.mp (BestRoute.calculate_mem hbest)).2
  have hmem : best ∈ process.ribInterface.bestrouteUpdates.1 ↔
      AnnouncesUnbeaten table batch best.route := by
    rw [hcollected]
    exact mem_added.trans add_mem_changesOf
  constructor
  · intro h
    have hannounced := hmem.mp h.collected
    exact ⟨hannounced, (reaches_iff_endsAnnounced hneighbour hreplay hannounced).mp h.reached⟩
  · intro h
    obtain ⟨hannounced, hends⟩ := h
    have hin := hmem.mpr hannounced
    exact ⟨hin, generated_announcement forms hin,
      (reaches_iff_endsAnnounced hneighbour hreplay hannounced).mpr hends⟩

/-- The neighbour that replays the changes of a whole run. -/
theorem coversHeld_iff {rib : BgpRib} {id : Uuid} {log : List (Entry Route)}
    (hrib : Represents rib id (tableOf log)) {freshRib coveredRib : BgpRib} {neighbour : Uuid}
    {sender : IpAddr} {reports : List (Entry BestRoute)} (hfresh : Registered freshRib neighbour)
    (hnone : ∀ network, ¬ Reaches freshRib neighbour sender network)
    (hreplay : Runs.collect (handle neighbour) freshRib
      ((changesOf [] log).map (relayed sender)) = .ok (coveredRib, reports)) :
    CoversHeld rib id coveredRib neighbour sender ↔
      ∀ network, rib.held id network ≠ [] → WithdrawsBest [] log network →
        EndsAnnounced [] log network := by
  unfold CoversHeld
  refine forall_congr' fun network => imp_congr_right fun hheld => ?_
  rw [hrib.own] at hheld
  rw [reaches_changesOf hfresh hreplay]
  constructor
  · intro h _
    exact h.resolve_right (fun hkept => hnone network hkept.1)
  · intro h
    by_cases hwithdrawn : WithdrawsBest [] log network
    · exact Or.inl (h hwithdrawn)
    · exact Or.inl (endsAnnounced_of_held log hheld hwithdrawn)

/-- Per update and prefix: the new best route is announced, and the neighbour keeps the
prefix, exactly when the update announces that route unbeaten and no reported withdrawal is
the last report at the prefix. Over whole runs: a neighbour that replayed every change reaches
all prefixes the client holds exactly when the last report is an announcement at each of them
that was ever reported withdrawn. -/
theorem reportsFallback_iff_announced (forms : TextForms) {start : BgpRib}
    {client : BgpRibInterface} (hstart : StartsEmpty start client.clientId)
    {log : List (Entry Route)} {rib : BgpRib} {earlier : List (Entry BestRoute)}
    (hlog : Runs.collect (handle client.clientId) start log = .ok (rib, earlier))
    {attempts : List (LockAttempt × Advertisement)} {rib' : BgpRib} {client' : BgpRibInterface}
    (hupdate : client.getBestrouteUpdates.1.update forms rib attempts = .ok (rib', client'))
    {changes : List (Entry BestRoute)}
    (hchanges : Runs.collect (handle client.clientId) rib (entriesOf forms attempts) =
      .ok (rib', changes))
    {process : BgpProcess} (hprocess : process.ribInterface = client')
    {freshRib coveredRib neighbourRib replayedRib : BgpRib} {neighbour : Uuid}
    {freshReports reports : List (Entry BestRoute)} (hfresh : Registered freshRib neighbour)
    (hnone : ∀ network, ¬ Reaches freshRib neighbour process.config.ip network)
    (hcovered : Runs.collect (handle neighbour) freshRib
      (earlier.map (relayed process.config.ip)) = .ok (coveredRib, freshReports))
    (hneighbour : Registered neighbourRib neighbour)
    (hreplay : Runs.collect (handle neighbour) neighbourRib
      (changes.map (relayed process.config.ip)) = .ok (replayedRib, reports)) :
    (∀ network best, rib'.best client.clientId network = some best →
      ((BestWithdrawn client.clientId rib (entriesOf forms attempts) network →
          ReportsFallback forms process replayedRib neighbour network best) ↔
        (BestWithdrawn client.clientId rib (entriesOf forms attempts) network →
          AnnouncesUnbeaten (tableOf log) (entriesOf forms attempts) best.route ∧
            EndsAnnounced (tableOf log) (entriesOf forms attempts) network))) ∧
    (CoversHeld rib client.clientId coveredRib neighbour process.config.ip ↔
      ∀ network, rib.held client.clientId network ≠ [] → WithdrawsBest [] log network →
        EndsAnnounced [] log network) := by
  obtain ⟨hrib, rfl⟩ := represents_of_collect hstart hlog
  obtain ⟨hcollected, rfl, hrib'⟩ := changes_of_update hrib hupdate hchanges
  subst hprocess
  refine ⟨?_, coversHeld_iff hrib hfresh hnone hcovered⟩
  intro network best hbest
  exact imp_congr_right fun _ =>
    reportsFallback_at hrib' (congrArg Prod.fst hcollected) hneighbour hreplay hbest

/-- Two peers announce one block, the first with the shorter path. -/
def competingLog : List (Entry Route) :=
  [.add (.sample 0x0A000001#32 8 "" [65001]), .add (.sample 0x0A000002#32 8 "" [65002, 65003])]

/-- The first peer withdraws, with the fields of its announcement. -/
def withdrawingAttempts : List (LockAttempt × Advertisement) :=
  [(.acquired, .sample "10.0.0.1" "" [65001] false true)]

theorem bestWithdrawn_competing {rib : BgpRib} {earlier : List (Entry BestRoute)}
    (h : Runs.collect (handle 1) BgpRib.new competingLog = .ok (rib, earlier)) :
    BestWithdrawn 1 rib (entriesOf .sample withdrawingAttempts)
      (.V4 (.around 0x0A000000#32 8)) := by
  obtain ⟨hrib, -⟩ := represents_of_collect ⟨[], rfl, by decide⟩ h
  refine ⟨[], [], .sample 0x0A000001#32 8 "" [65001], [], rib, [],
    .ofRoute (.sample 0x0A000001#32 8 "" [65001]), by decide, rfl, ?_, rfl⟩
  rw [hrib.best]
  decide

theorem reportsFallback_iff_announced_competing :
    ∃ rib earlier rib' client' changes freshRib coveredRib freshReports replayedRib reports,
      Runs.collect (handle 1) BgpRib.new competingLog = .ok (rib, earlier) ∧
      (⟨1, [], []⟩ : BgpRibInterface).update .sample rib withdrawingAttempts =
        .ok (rib', client') ∧
      Runs.collect (handle 1) rib (entriesOf .sample withdrawingAttempts) = .ok (rib', changes) ∧
      BgpRib.new.run [.registerRouter 9] = .ok freshRib ∧
      Runs.collect (handle 9) freshRib (earlier.map (relayed (.V4 0x0A000001#32))) =
        .ok (coveredRib, freshReports) ∧
      Runs.collect (handle 9) freshRib (changes.map (relayed (.V4 0x0A000001#32))) =
        .ok (replayedRib, reports) ∧
      (∀ network best, rib'.best 1 network = some best →
        ((BestWithdrawn 1 rib (entriesOf .sample withdrawingAttempts) network →
            ReportsFallback .sample (sampleProcess client') replayedRib 9 network best) ↔
          (BestWithdrawn 1 rib (entriesOf .sample withdrawingAttempts) network →
            AnnouncesUnbeaten (tableOf competingLog) (entriesOf .sample withdrawingAttempts)
                best.route ∧
              EndsAnnounced (tableOf competingLog) (entriesOf .sample withdrawingAttempts)
                network))) ∧
      (CoversHeld rib 1 coveredRib 9 (.V4 0x0A000001#32) ↔
        ∀ network, rib.held 1 network ≠ [] → WithdrawsBest [] competingLog network →
          EndsAnnounced [] competingLog network) := by
  obtain ⟨hprefixes, hcovers⟩ :=
    @reportsFallback_iff_announced .sample BgpRib.new ⟨1, [], []⟩ ⟨[], rfl, by decide⟩ competingLog
      _ _ rfl withdrawingAttempts _ _ rfl _ rfl (sampleProcess _) rfl _ _ _ _ 9 _ _
      (registered_sample rfl) (not_reaches_of_startsEmpty ⟨[9], rfl, by decide⟩ _) rfl
      (registered_sample rfl) rfl
  exact ⟨_, _, _, _, _, _, _, _, _, _, rfl, rfl, rfl, rfl, rfl, rfl, hprefixes, hcovers⟩

/-- The second peer's route takes over unannounced, and a neighbour that reached the block
has lost it. -/
theorem not_reportsFallback_competing :
    ∃ rib earlier rib' client' changes freshRib coveredRib freshReports replayedRib reports best,
      Runs.collect (handle 1) BgpRib.new competingLog = .ok (rib, earlier) ∧
      (⟨1, [], []⟩ : BgpRibInterface).update .sample rib withdrawingAttempts =
        .ok (rib', client') ∧
      Runs.collect (handle 1) rib (entriesOf .sample withdrawingAttempts) = .ok (rib', changes) ∧
      BgpRib.new.run [.registerRouter 9] = .ok freshRib ∧
      Runs.collect (handle 9) freshRib (earlier.map (relayed (.V4 0x0A000001#32))) =
        .ok (coveredRib, freshReports) ∧
      Runs.collect (handle 9) coveredRib (changes.map (relayed (.V4 0x0A000001#32))) =
        .ok (replayedRib, reports) ∧
      rib'.best 1 (.V4 (.around 0x0A000000#32 8)) = some best ∧
      client'.bestrouteUpdates.1 = [] ∧
      replayedRib.held 9 (.V4 (.around 0x0A000000#32 8)) = [] ∧
      ¬ (BestWithdrawn 1 rib (entriesOf .sample withdrawingAttempts)
          (.V4 (.around 0x0A000000#32 8)) →
        ReportsFallback .sample (sampleProcess client') replayedRib 9
          (.V4 (.around 0x0A000000#32 8)) best) := by
  refine ⟨_, _, _, _, _, _, _, _, _, _, _, rfl, rfl, rfl, rfl, rfl, rfl, rfl, rfl, rfl, ?_⟩
  intro h
  have hreports := h (bestWithdrawn_competing rfl)
  have hnil := hreports.collected
  exact List.not_mem_nil (show _ ∈ ([] : List BestRoute) from hnil)

end NetfabricBgp.FallbackReports
