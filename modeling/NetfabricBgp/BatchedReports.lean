import NetfabricBgp.GeneratedDecodings
import NetfabricBgp.TableChanges

/-!
One generated advertisement against the changes it was built from. The advertisement
lists all announcements before all withdrawals, and a neighbour applies it in that order,
so a prefix that is reported withdrawn and then announced again ends up withdrawn.
-/
namespace NetfabricBgp.BatchedReports

open Addresses Routes RouterMasks Ribs KeyedLog Advertisements Channels RibInterfaces Processes
  ClientTables GeneratedDecodings NeighbourReplays TableChanges

/-- Printing and parsing give back the sender's address and the prefixes of the changes. -/
def RoundTrips (forms : TextForms) (sender : IpAddr) (changes : List (Entry BestRoute)) : Prop :=
  forms.parse (forms.addrToString sender) = some sender ∧
    ∀ change ∈ changes, forms.fromStrTruncate
      (forms.networkToString (prefixOf change.value)) = some (prefixOf change.value)

/-- After both replays the neighbour reaches the same prefixes through the sender. -/
def SamePrefixes (rib rib' : BgpRib) (neighbour : Uuid) (sender : IpAddr) : Prop :=
  ∀ network, Reaches rib neighbour sender network ↔ Reaches rib' neighbour sender network

section Decoding
variable {forms : TextForms} {process : BgpProcess} {changes : List (Entry BestRoute)}

theorem parsesBack_of_roundTrips
    (hupdates : process.bestrouteUpdates = (added changes, retracted changes))
    (h : RoundTrips forms process.config.ip changes) : ParsesBack forms process where
  ip := h.1
  announced := by
    intro best hbest
    rw [hupdates] at hbest
    exact h.2 _ (mem_added.mp hbest)
  withdrawn := by
    intro best hbest
    rw [hupdates] at hbest
    exact h.2 _ (mem_retracted.mp hbest)

/-- The generated advertisement decodes to the changes, announcements first. -/
theorem entries_nextAdvertisement (timestamp : UInt64)
    (hupdates : process.bestrouteUpdates = (added changes, retracted changes))
    (h : RoundTrips forms process.config.ip changes) :
    (process.nextAdvertisement forms timestamp).entries forms =
      (batched changes).map (relayed process.config.ip) := by
  have hparses := parsesBack_of_roundTrips hupdates h
  unfold Advertisement.entries batched
  rw [getAnnouncements_of_parsesBack hparses, getWithdrawals_of_parsesBack hparses, hupdates,
    List.map_append]
  simp [relayed, announcedBy, withdrawnBy, Function.comp_def]

end Decoding

/-- The neighbour's update with the generated advertisement replays the batched changes. -/
theorem update_nextAdvertisement {forms : TextForms} {process : BgpProcess}
    {self : BgpRibInterface} {changes : List (Entry BestRoute)} {rib : BgpRib} {neighbour : Uuid}
    (hupdates : self.bestrouteUpdates = (added changes, retracted changes))
    (hprocess : process.ribInterface = self) (hforms : RoundTrips forms process.config.ip changes)
    (hneighbour : Registered rib neighbour) (timestamp : UInt64) :
    ∃ rib' interface, (⟨neighbour, [], []⟩ : BgpRibInterface).update forms rib
        [(.acquired, process.getBestRouteChanges.nextAdvertisement forms timestamp)] =
          .ok (rib', interface) ∧
      ∀ network, Reaches rib' neighbour process.config.ip network ↔
        Present prefixOf (batched changes) (Reaches rib neighbour process.config.ip network)
          network := by
  subst hprocess
  obtain ⟨rib', reports, hreplay, hreaches⟩ :=
    reaches_replay hneighbour process.config.ip (batched changes)
  have hentries : (process.getBestRouteChanges.nextAdvertisement forms timestamp).entries forms =
      (batched changes).map (relayed process.config.ip) :=
    entries_nextAdvertisement timestamp hupdates hforms
  rw [← hentries, ← entriesOf_single] at hreplay
  exact ⟨rib', _, update_of_collect hreplay, hreaches⟩

/-- A neighbour ends up with the same prefixes from one generated advertisement as from the
changes in their own order exactly when no prefix has both a reported withdrawal and an
announcement as its last report. -/
theorem samePrefixes_iff_not_reannounced (forms : TextForms) {start : BgpRib}
    {client : BgpRibInterface} (hstart : StartsEmpty start client.clientId)
    {log : List (Entry Route)} {rib : BgpRib} {earlier : List (Entry BestRoute)}
    (hlog : Runs.collect (handle client.clientId) start log = .ok (rib, earlier))
    {attempts : List (LockAttempt × Advertisement)} {rib' : BgpRib} {client' : BgpRibInterface}
    (hupdate : client.getBestrouteUpdates.1.update forms rib attempts = .ok (rib', client'))
    {changes : List (Entry BestRoute)}
    (hchanges : Runs.collect (handle client.clientId) rib (entriesOf forms attempts) =
      .ok (rib', changes))
    {process : BgpProcess} (hprocess : process.ribInterface = client')
    (hforms : RoundTrips forms process.config.ip changes)
    {neighbourRib : BgpRib} {neighbour : Uuid} (hneighbour : Registered neighbourRib neighbour)
    (timestamp : UInt64) :
    ∃ batchedRib interface replayedRib reports,
      (⟨neighbour, [], []⟩ : BgpRibInterface).update forms neighbourRib
        [(.acquired, process.getBestRouteChanges.nextAdvertisement forms timestamp)] =
          .ok (batchedRib, interface) ∧
      Runs.collect (handle neighbour) neighbourRib (changes.map (relayed process.config.ip)) =
        .ok (replayedRib, reports) ∧
      (SamePrefixes batchedRib replayedRib neighbour process.config.ip ↔
        ∀ network, ¬ (WithdrawsBest (tableOf log) (entriesOf forms attempts) network ∧
          EndsAnnounced (tableOf log) (entriesOf forms attempts) network)) := by
  obtain ⟨hrib, -⟩ := represents_of_collect hstart hlog
  obtain ⟨hcollected, hchanges', -⟩ := changes_of_update hrib hupdate hchanges
  obtain ⟨batchedRib, interface, hbatched, hreaches⟩ :=
    update_nextAdvertisement hcollected hprocess hforms hneighbour timestamp
  obtain ⟨replayedRib, reports, hreplayed, hreaches'⟩ :=
    reaches_replay hneighbour process.config.ip changes
  refine ⟨batchedRib, interface, replayedRib, reports, hbatched, hreplayed, ?_⟩
  unfold SamePrefixes
  simp only [hreaches, hreaches', present_batched_iff]
  refine forall_congr' fun network => not_congr ?_
  rw [hchanges', ← exists_live_changesOf, ← retract_mem_changesOf, and_comm]

/-- A peer announces a block, withdraws it and announces it again in one update. -/
def flappingAttempts : List (LockAttempt × Advertisement) :=
  [(.acquired, .sample "10.0.0.2" "" [65001] true false),
    (.acquired, .sample "10.0.0.2" "" [65001] false true),
    (.acquired, .sample "10.0.0.2" "" [65001] true false)]

theorem samePrefixes_iff_not_reannounced_flapping :
    ∃ rib' self' changes neighbourRib batchedRib interface replayedRib reports,
      (⟨1, [], []⟩ : BgpRibInterface).update .sample BgpRib.new flappingAttempts =
        .ok (rib', self') ∧
      Runs.collect (handle 1) BgpRib.new (entriesOf .sample flappingAttempts) =
        .ok (rib', changes) ∧
      BgpRib.new.run [.registerRouter 9] = .ok neighbourRib ∧
      (⟨9, [], []⟩ : BgpRibInterface).update .sample neighbourRib [(.acquired,
        (sampleProcess self').getBestRouteChanges.nextAdvertisement .sample 0)] =
          .ok (batchedRib, interface) ∧
      Runs.collect (handle 9) neighbourRib (changes.map (relayed (.V4 0x0A000001#32))) =
        .ok (replayedRib, reports) ∧
      (SamePrefixes batchedRib replayedRib 9 (.V4 0x0A000001#32) ↔
        ∀ network, ¬ (WithdrawsBest [] (entriesOf .sample flappingAttempts) network ∧
          EndsAnnounced [] (entriesOf .sample flappingAttempts) network)) := by
  obtain ⟨batchedRib, interface, replayedRib, reports, hbatched, hreplayed, hiff⟩ :=
    @samePrefixes_iff_not_reannounced .sample BgpRib.new ⟨1, [], []⟩ ⟨[], rfl, by decide⟩ [] _ _ rfl
      flappingAttempts _ _ rfl _ rfl (sampleProcess _) rfl ⟨rfl, by decide⟩ _ 9
      (registered_sample rfl) 0
  exact ⟨_, _, _, _, batchedRib, interface, replayedRib, reports, rfl, rfl, rfl, hbatched,
    hreplayed, hiff⟩

/-- The neighbour loses the flapping block with the one advertisement, and has it after the
changes in their own order. -/
theorem not_samePrefixes_flapping :
    ∃ rib' self' changes neighbourRib batchedRib interface replayedRib reports,
      (⟨1, [], []⟩ : BgpRibInterface).update .sample BgpRib.new flappingAttempts =
        .ok (rib', self') ∧
      Runs.collect (handle 1) BgpRib.new (entriesOf .sample flappingAttempts) =
        .ok (rib', changes) ∧
      BgpRib.new.run [.registerRouter 9] = .ok neighbourRib ∧
      (⟨9, [], []⟩ : BgpRibInterface).update .sample neighbourRib [(.acquired,
        (sampleProcess self').getBestRouteChanges.nextAdvertisement .sample 0)] =
          .ok (batchedRib, interface) ∧
      Runs.collect (handle 9) neighbourRib (changes.map (relayed (.V4 0x0A000001#32))) =
        .ok (replayedRib, reports) ∧
      batchedRib.held 9 (.V4 (.around 0x0A000000#32 8)) = [] ∧
      ¬ SamePrefixes batchedRib replayedRib 9 (.V4 0x0A000001#32) := by
  refine ⟨_, _, _, _, _, _, _, _, rfl, rfl, rfl, rfl, rfl, rfl, ?_⟩
  intro hsame
  obtain ⟨route, hroute, -⟩ := (hsame (.V4 (.around 0x0A000000#32 8))).mpr
    ⟨⟨.V4 0x0A000001#32, .V4 (.around 0x0A000000#32 8), "", []⟩, by decide, rfl⟩
  have hnil : route ∈ ([] : List Route) := hroute
  exact List.not_mem_nil hnil

end NetfabricBgp.BatchedReports
