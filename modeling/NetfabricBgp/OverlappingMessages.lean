import NetfabricBgp.NeighbourReplays

/-!
An advertisement that announces a prefix and withdraws it too. The announcements are
applied first and the withdrawals after them, and a withdrawal matches by peer and prefix
alone, so the announced route is gone again once the update returns.
-/
namespace NetfabricBgp.OverlappingMessages

open Addresses Routes RouterMasks Ribs RibInvariants KeyedLog Advertisements Channels RibInterfaces
  NeighbourReplays

/-- An announcement of the message names the network. -/
def Announces (forms : TextForms) (advertisement : Advertisement) (network : IpNetwork) : Prop :=
  ∃ announcement ∈ advertisement.announcements.getD [],
    ∃ pfx ∈ announcement.prefixes, forms.fromStrTruncate pfx = some network

/-- A withdrawal of the message names the network. -/
def Withdraws (forms : TextForms) (advertisement : Advertisement) (network : IpNetwork) : Prop :=
  ∃ withdrawal ∈ advertisement.withdrawals.getD [], forms.fromStrTruncate withdrawal = some network

section Decoding
variable {forms : TextForms} {advertisement : Advertisement} {peer : IpAddr}

theorem exists_announcement_iff (hpeer : forms.parse advertisement.peer = some peer)
    (network : IpNetwork) :
    (∃ route ∈ advertisement.getAnnouncements forms, route.pfx = network) ↔
      Announces forms advertisement network := by
  simp only [Advertisement.mem_getAnnouncements_iff, Announces,
    Advertisement.route_of_parse_peer forms hpeer, Option.map_eq_some_iff]
  constructor
  · intro h
    obtain ⟨route, ⟨announcement, hmem, pfx, hpfx, parsed, hparse, rfl⟩, rfl⟩ := h
    exact ⟨announcement, hmem, pfx, hpfx, hparse⟩
  · intro h
    obtain ⟨announcement, hmem, pfx, hpfx, hparse⟩ := h
    exact ⟨_, ⟨announcement, hmem, pfx, hpfx, network, hparse, rfl⟩, rfl⟩

/-- All routes of a message have its peer, so a withdrawal has the key of an announced route
exactly when it names the same network. -/
theorem exists_withdrawal_iff {route : Route}
    (hroute : route ∈ advertisement.getAnnouncements forms) :
    (∃ w ∈ advertisement.getWithdrawals forms, w.key = route.key) ↔
      Withdraws forms advertisement route.pfx := by
  obtain ⟨announcement, -, pfx, -, hdecoded⟩ :=
    (Advertisement.mem_getAnnouncements_iff forms).mp hroute
  have hpeer := Advertisement.parse_peer_of_route forms hdecoded
  simp only [Advertisement.mem_getWithdrawals_iff, Withdraws,
    Advertisement.route_of_parse_peer forms hpeer, Option.map_eq_some_iff]
  constructor
  · intro h
    obtain ⟨w, ⟨withdrawal, hmem, network, hparse, rfl⟩, hkey⟩ := h
    obtain rfl : network = route.pfx := (Prod.mk.inj hkey).2
    exact ⟨withdrawal, hmem, hparse⟩
  · intro h
    obtain ⟨withdrawal, hmem, hparse⟩ := h
    exact ⟨_, ⟨withdrawal, hmem, route.pfx, hparse, rfl⟩, rfl⟩

end Decoding

/-- After the update the client holds an announced route exactly when the message does not
withdraw its prefix. -/
theorem mem_held_update_iff {forms : TextForms} {ops : List BgpRib.Op} {rib rib' : BgpRib}
    {client client' : BgpRibInterface} {advertisement : Advertisement} {route : Route}
    (h : BgpRib.new.run ops = .ok rib)
    (hupdate : client.update forms rib [(.acquired, advertisement)] = .ok (rib', client'))
    (hroute : route ∈ advertisement.getAnnouncements forms) :
    route ∈ rib'.held client.clientId route.pfx ↔ ¬ Withdraws forms advertisement route.pfx := by
  rw [update_eq, entriesOf_single, Runs.map_eq_ok] at hupdate
  obtain ⟨⟨next, changes⟩, hcollect, heq⟩ := hupdate
  obtain ⟨rfl, -⟩ := Prod.mk.inj heq
  rw [mem_held_replay h hcollect, ← exists_withdrawal_iff hroute]
  have hretract : ∀ w, Entry.retract w ∈ advertisement.entries forms ↔
      w ∈ advertisement.getWithdrawals forms := by
    intro w
    simp [Advertisement.entries]
  constructor
  · intro hheld hwithdrawn
    obtain ⟨w, hw, hkey⟩ := hwithdrawn
    rcases hheld with ⟨hlive, -⟩ | ⟨-, hnever⟩
    · rcases (live_append Route.key).mp hlive with hlive | ⟨-, hnever⟩
      · have hadd := add_mem_of_live Route.key hlive
        simp at hadd
      · exact hnever w (by simpa using hw) hkey
    · exact hnever w ((hretract w).mpr hw) hkey
  · intro hnone
    refine Or.inl ⟨live_of_not_retracted Route.key ?_ ?_, rfl⟩
    · simpa [Advertisement.entries] using hroute
    · intro w hw hkey
      exact hnone ⟨w, (hretract w).mp hw, hkey⟩

/-- In every reachable RIB an update with one advertisement leaves the client holding all the
announced routes exactly when the message withdraws none of the prefixes it announces. -/
theorem holdsAnnounced_iff {forms : TextForms} {ops : List BgpRib.Op} {rib rib' : BgpRib}
    {client client' : BgpRibInterface} {advertisement : Advertisement} {peer : IpAddr}
    (h : BgpRib.new.run ops = .ok rib) (hpeer : forms.parse advertisement.peer = some peer)
    (hupdate : client.update forms rib [(.acquired, advertisement)] = .ok (rib', client')) :
    (∀ route ∈ advertisement.getAnnouncements forms,
        route ∈ rib'.held client.clientId route.pfx) ↔
      ∀ network, Announces forms advertisement network →
        ¬ Withdraws forms advertisement network := by
  constructor
  · intro hheld network hannounced
    obtain ⟨route, hroute, rfl⟩ := (exists_announcement_iff hpeer network).mpr hannounced
    exact (mem_held_update_iff h hupdate hroute).mp (hheld route hroute)
  · intro hapart route hroute
    apply (mem_held_update_iff h hupdate hroute).mpr
    exact hapart route.pfx ((exists_announcement_iff hpeer route.pfx).mp ⟨route, hroute, rfl⟩)

theorem holdsAnnounced_iff_sample :
    ∃ rib' client',
      (⟨1, [], []⟩ : BgpRibInterface).update .sample BgpRib.new
        [(.acquired, .sample "10.0.0.1" "10.0.0.1" [65001] true false)] = .ok (rib', client') ∧
      ((∀ route ∈ (Advertisement.sample "10.0.0.1" "10.0.0.1" [65001] true false).getAnnouncements
            .sample, route ∈ rib'.held 1 route.pfx) ↔
        ∀ network,
          Announces .sample (.sample "10.0.0.1" "10.0.0.1" [65001] true false) network →
            ¬ Withdraws .sample (.sample "10.0.0.1" "10.0.0.1" [65001] true false) network) :=
  ⟨_, _, rfl, @holdsAnnounced_iff .sample [] BgpRib.new _ ⟨1, [], []⟩ _ _ _ rfl rfl rfl⟩

/-- A message that lists one prefix twice leaves nothing of it. -/
theorem not_holdsAnnounced_overlapping :
    ∃ rib' client',
      (⟨1, [], []⟩ : BgpRibInterface).update .sample BgpRib.new
        [(.acquired, .sample "10.0.0.1" "10.0.0.1" [65001] true true)] = .ok (rib', client') ∧
      rib'.held 1 (.V4 (.around 0x0A000000#32 8)) = [] ∧
      ¬ ∀ route ∈ (Advertisement.sample "10.0.0.1" "10.0.0.1" [65001] true true).getAnnouncements
          .sample, route ∈ rib'.held 1 route.pfx :=
  ⟨_, _, rfl, by decide, by decide⟩

end NetfabricBgp.OverlappingMessages
