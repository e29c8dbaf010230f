import NetfabricBgp.Processes
import NetfabricBgp.RibInvariants

/-!
How a neighbour decodes the advertisement that a process generates. Every best route is
flattened to texts, which are parsed again, so nothing is lost when the texts parse back.
All decoded routes have the sender as their peer, and by peer and prefix a withdrawal
finds what an earlier announcement of the sender left in a neighbour's RIB.
-/
namespace NetfabricBgp.GeneratedDecodings

open Addresses Routes RouterMasks Ribs RibInvariants Advertisements Processes

/-- The texts of the address of the process and of the prefixes it reports parse back. -/
structure ParsesBack (forms : TextForms) (process : BgpProcess) : Prop where
  ip : forms.parse (forms.addrToString process.config.ip) = some process.config.ip
  announced : ∀ best ∈ process.bestrouteUpdates.1,
    forms.fromStrTruncate (forms.networkToString best.route.pfx) = some best.route.pfx
  withdrawn : ∀ best ∈ process.bestrouteUpdates.2,
    forms.fromStrTruncate (forms.networkToString best.route.pfx) = some best.route.pfx

/-- A best route as the neighbour of the sender decodes its announcement. -/
def announcedBy (sender : IpAddr) (best : BestRoute) : Route :=
  ⟨sender, best.route.pfx, best.route.nextHop, []⟩

def withdrawnBy (sender : IpAddr) (best : BestRoute) : Route := ⟨sender, best.route.pfx, "", []⟩

/-- The withdrawal identifies the route, and its removal takes the route from any router of
any reachable RIB. -/
structure TakesBack (withdrawal route : Route) : Prop where
  peer : withdrawal.peer = route.peer
  pfx : withdrawal.pfx = route.pfx
  removes : ∀ ops rib router rib' report, BgpRib.new.run ops = .ok rib →
    rib.removeRoute withdrawal router = .ok (rib', report) →
      route ∉ rib'.held router route.pfx

section Decoding
variable {forms : TextForms} {process : BgpProcess}

theorem route_nextAdvertisement (timestamp : UInt64)
    (h : forms.parse (forms.addrToString process.config.ip) = some process.config.ip)
    (network : IpNetwork) (nextHop : String)
    (hnetwork : forms.fromStrTruncate (forms.networkToString network) = some network) :
    (process.nextAdvertisement forms timestamp).route forms (forms.networkToString network)
      nextHop = some ⟨process.config.ip, network, nextHop, []⟩ := by
  simp [Advertisement.route, BgpProcess.nextAdvertisement, h, hnetwork]

theorem getAnnouncements_of_parsesBack (h : ParsesBack forms process) (timestamp : UInt64) :
    (process.nextAdvertisement forms timestamp).getAnnouncements forms =
      process.bestrouteUpdates.1.map (announcedBy process.config.ip) := by
  have hlist : (process.nextAdvertisement forms timestamp).announcements =
      some (process.bestrouteUpdates.1.map (fun best =>
        ⟨best.route.nextHop, [forms.networkToString best.route.pfx]⟩)) := rfl
  rw [Advertisement.getAnnouncements, hlist, Option.getD_some, List.flatMap_map,
    List.map_eq_flatMap]
  apply List.flatMap_congr
  intro best hbest
  have hone := route_nextAdvertisement timestamp h.ip best.route.pfx best.route.nextHop
    (h.announced best hbest)
  simp [hone, announcedBy]

theorem getWithdrawals_of_parsesBack (h : ParsesBack forms process) (timestamp : UInt64) :
    (process.nextAdvertisement forms timestamp).getWithdrawals forms =
      process.bestrouteUpdates.2.map (withdrawnBy process.config.ip) := by
  have hlist : (process.nextAdvertisement forms timestamp).withdrawals =
      some (process.bestrouteUpdates.2.map (fun best =>
        forms.networkToString best.route.pfx)) := rfl
  rw [Advertisement.getWithdrawals, hlist, Option.getD_some, List.filterMap_map,
    ← List.filterMap_eq_map]
  apply List.filterMap_congr
  intro best hbest
  exact route_nextAdvertisement timestamp h.ip best.route.pfx "" (h.withdrawn best hbest)

/-- Whatever else parses, a decoded announcement has the sender as its peer. -/
theorem peer_of_mem_getAnnouncements
    (hip : forms.parse (forms.addrToString process.config.ip) = some process.config.ip)
    {timestamp : UInt64} {route : Route}
    (h : route ∈ (process.nextAdvertisement forms timestamp).getAnnouncements forms) :
    route.peer = process.config.ip := by
  obtain ⟨announcement, -, pfx, -, hroute⟩ := (Advertisement.mem_getAnnouncements_iff forms).mp h
  have hpeer := Advertisement.parse_peer_of_route forms hroute
  exact (Option.some.inj (hip.symm.trans hpeer)).symm

end Decoding

theorem takesBack_of_key {withdrawal route : Route} (h : withdrawal.key = route.key) :
    TakesBack withdrawal route := by
  obtain ⟨hpeer, hpfx⟩ := Prod.mk.inj h
  refine ⟨hpeer, hpfx, ?_⟩
  intro ops rib router rib' report hrun hremove hheld
  rw [← hpfx] at hheld
  exact notMem_held_removeRoute (wellFormed_run wellFormed_new hrun) hremove h.symm hheld

/-- The generated advertisement is decoded to one route per best-route update, in order, and
its withdrawals take back whatever an earlier advertisement of the same sender announced
at their prefixes. -/
theorem generated_decodes {forms : TextForms} {process : BgpProcess} (timestamp : UInt64)
    (h : ParsesBack forms process) :
    ∃ advertisement, (process.generateAdvertisement forms timestamp).advertisement =
        process.advertisement ++ [advertisement] ∧
      advertisement.getAnnouncements forms =
        process.bestrouteUpdates.1.map (announcedBy process.config.ip) ∧
      advertisement.getWithdrawals forms =
        process.bestrouteUpdates.2.map (withdrawnBy process.config.ip) ∧
      ∀ (earlier : BgpProcess) (before : UInt64), earlier.config.ip = process.config.ip →
        ∀ route ∈ (earlier.nextAdvertisement forms before).getAnnouncements forms,
          ∀ withdrawal ∈ advertisement.getWithdrawals forms, withdrawal.pfx = route.pfx →
            TakesBack withdrawal route := by
  have hwithdrawals := getWithdrawals_of_parsesBack h timestamp
  refine ⟨process.nextAdvertisement forms timestamp, rfl,
    getAnnouncements_of_parsesBack h timestamp, hwithdrawals, ?_⟩
  intro earlier before hip route hroute withdrawal hwithdrawal hpfx
  have hearlier : forms.parse (forms.addrToString earlier.config.ip) = some earlier.config.ip := by
    rw [hip]
    exact h.ip
  rw [hwithdrawals] at hwithdrawal
  obtain ⟨best, -, rfl⟩ := List.mem_map.mp hwithdrawal
  have hpeer : process.config.ip = route.peer :=
    hip.symm.trans (peer_of_mem_getAnnouncements hearlier hroute).symm
  exact takesBack_of_key (Prod.ext hpeer hpfx)

/-- A process that reports one new best route and one withdrawn one. -/
def reportingProcess : BgpProcess :=
  { BgpProcess.new 5 ⟨5, [], []⟩ with
    config := ⟨.V4 0x0A000001#32, 65000⟩
    bestrouteUpdates := ([.ofRoute (.sample 2 8 "10.0.0.2" [65002])],
      [.ofRoute (.sample 3 8 "10.0.0.3" [65003])]) }

theorem generated_decodes_reporting :
    ∃ advertisement, (reportingProcess.generateAdvertisement .sample 0).advertisement =
        [advertisement] ∧
      advertisement.getAnnouncements .sample =
        [⟨.V4 0x0A000001#32, .V4 (.around 0x0A000000#32 8), "10.0.0.2", []⟩] ∧
      advertisement.getWithdrawals .sample =
        [⟨.V4 0x0A000001#32, .V4 (.around 0x0A000000#32 8), "", []⟩] := by
  have hparses : ParsesBack .sample reportingProcess := ⟨by decide, by decide, by decide⟩
  obtain ⟨advertisement, hlast, hannounced, hwithdrawn, -⟩ := generated_decodes 0 hparses
  exact ⟨advertisement, hlast, hannounced.trans (by decide), hwithdrawn.trans (by decide)⟩

end NetfabricBgp.GeneratedDecodings
