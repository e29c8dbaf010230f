import Mathlib.Logic.Relation
import NetfabricBgp.Flows
import NetfabricBgp.QuietNetworks

/-!
Where routes come from, if no filter rewrites what it lets through. A prefix and its next hop are
held by a client only if an advertisement from outside announced them to a thread from which links
lead to the client's own, and a route disappears only if an advertisement from outside withdrew its
prefix at such a thread. The routes that are not from outside have no path, and the neighbour as
their peer.
-/
namespace NetfabricBgp.Origins

open Addresses Routes RouterMasks Ribs Advertisements KeyedLog BoundedQueues Channels Interfaces
  Sessions Processes Supplies Routers QuietNetworks ProcessThreads ThreadSteps ThreadHistories
  Speakers Flows

/-- The printed form of a network that was parsed parses back. -/
def Reparses (forms : TextForms) : Prop :=
  ∀ text network, forms.fromStrTruncate text = some network →
    forms.fromStrTruncate (forms.networkToString network) = some network

/-- The announced prefixes and next hops. -/
def Announces (forms : TextForms) (ad : Advertisement) (fact : IpNetwork × String) : Prop :=
  ∃ route ∈ ad.getAnnouncements forms, (route.pfx, route.nextHop) = fact

/-- The withdrawn prefixes. -/
def Withdraws (forms : TextForms) (ad : Advertisement) (network : IpNetwork) : Prop :=
  ∃ route ∈ ad.getWithdrawals forms, route.pfx = network

section Graphs
variable {ι : Type*} {γ : Type*}

def Reads (settings : ι → Option Setting) (i : ι) (c : ChannelId) : Prop :=
  ∃ setting port, settings i = some setting ∧ some port ∈ setting.ports ∧ port.inChannel = some c

def Writes (settings : ι → Option Setting) (i : ι) (c : ChannelId) : Prop :=
  ∃ setting port, settings i = some setting ∧ some port ∈ setting.ports ∧ port.outChannel = some c

/-- The filter where the thread reads the channel lets the advertisement through. -/
def Accepts (settings : ι → Option Setting) (i : ι) (c : ChannelId) (ad : Advertisement) : Prop :=
  ∃ setting port, settings i = some setting ∧ some port ∈ setting.ports ∧
    port.inChannel = some c ∧ (port.inFilter ad).1 = true

theorem Accepts.reads {settings : ι → Option Setting} {i : ι} {c : ChannelId}
    {ad : Advertisement} (h : Accepts settings i c ad) : Reads settings i c := by
  obtain ⟨setting, port, hsetting, hport, hin, -⟩ := h
  exact ⟨setting, port, hsetting, hport, hin⟩

/-- The second thread reads a channel that the first writes to. -/
def Feeds (settings : ι → Option Setting) (j i : ι) : Prop :=
  ∃ c, Writes settings j c ∧ Reads settings i c

/-- On the channel at the start, or put there from outside. -/
def Arrives (state : Threads ι) (history : List (Option ι × Effect)) (c : ChannelId)
    (ad : Advertisement) : Prop :=
  .advertisement ad ∈ (state.shared.links c).queue.items ∨
    (none, .put c (.advertisement ad)) ∈ history

/-- An arriving advertisement tells it to a thread that accepts it and from which links lead
here. -/
def Origin (tells : Advertisement → γ → Prop) (arrives : ChannelId → Advertisement → Prop)
    (settings : ι → Option Setting) (i : ι) (fact : γ) : Prop :=
  ∃ j c ad, Accepts settings j c ad ∧ arrives c ad ∧ tells ad fact ∧
    Relation.ReflTransGen (Feeds settings) j i

theorem Origin.feeds {tells : Advertisement → γ → Prop}
    {arrives : ChannelId → Advertisement → Prop} {settings : ι → Option Setting} {j i : ι}
    {fact : γ} (h : Origin tells arrives settings j fact) (hfeeds : Feeds settings j i) :
    Origin tells arrives settings i fact := by
  obtain ⟨k, c, ad, haccepts, harrives, hsays, hpath⟩ := h
  exact ⟨k, c, ad, haccepts, harrives, hsays, hpath.tail hfeeds⟩

/-- No filter of a thread changes what it lets through. -/
def FiltersKeep (settings : ι → Option Setting) : Prop :=
  ∀ i setting port, settings i = some setting → some port ∈ setting.ports →
    ∀ ad, (port.inFilter ad).2 = ad ∧ (port.outFilter ad).2 = ad

end Graphs

section Telling
variable {ι : Type*} (forms : TextForms) (arrives : ChannelId → Advertisement → Prop)
  (settings : ι → Option Setting)

/-- A best route with an origin, whose prefix was parsed. -/
def TellsAnnounced (i : ι) (best : BestRoute) : Prop :=
  (∃ text, forms.fromStrTruncate text = some best.route.pfx) ∧
    Origin (Announces forms) arrives settings i (best.route.pfx, best.route.nextHop)

def TellsWithdrawn (i : ι) (best : BestRoute) : Prop :=
  (∃ text, forms.fromStrTruncate text = some best.route.pfx) ∧
    Origin (Withdraws forms) arrives settings i best.route.pfx

/-- An advertisement that a thread makes of such routes. -/
def Made (i : ι) (ad : Advertisement) : Prop :=
  ∃ setting timestamp pending, settings i = some setting ∧
    ad = advertisementOf forms setting timestamp pending ∧
    (∀ best ∈ pending.1, TellsAnnounced forms arrives settings i best) ∧
    ∀ best ∈ pending.2, TellsWithdrawn forms arrives settings i best

/-- From outside, or made by a thread that writes to the channel. -/
def Carried (c : ChannelId) (ad : Advertisement) : Prop :=
  arrives c ad ∨ ∃ j, Writes settings j c ∧ Made forms arrives settings j ad

/-- Everything that can be under way. -/
def originFlow : Flow ι where
  carried := Carried forms arrives settings
  inbound := fun i ad => ∃ c, Accepts settings i c ad ∧ Carried forms arrives settings c ad
  outbound := Made forms arrives settings
  announced := TellsAnnounced forms arrives settings
  withdrawn := TellsWithdrawn forms arrives settings

end Telling

section Decoding
variable {forms : TextForms} {setting : Setting} {timestamp : UInt64}
  {pending : List BestRoute × List BestRoute} {ad : Advertisement} {route : Route}

theorem fromStrTruncate_of_route {pfx nextHop : String}
    (h : ad.route forms pfx nextHop = some route) :
    forms.fromStrTruncate pfx = some route.pfx := by
  have hpeer := Advertisement.parse_peer_of_route forms h
  rw [Advertisement.route_of_parse_peer forms hpeer] at h
  obtain ⟨network, hnetwork, hroute⟩ := Option.map_eq_some_iff.mp h
  rw [hnetwork, ← hroute]

/-- An announcement of a generated advertisement, as it is decoded. -/
theorem announced_of_told
    (h : route ∈ (advertisementOf forms setting timestamp pending).getAnnouncements forms) :
    ∃ best ∈ pending.1, route.nextHop = best.route.nextHop ∧ route.asPath = [] ∧
      forms.fromStrTruncate (forms.networkToString best.route.pfx) = some route.pfx ∧
      forms.parse (forms.addrToString setting.config.ip) = some route.peer := by
  obtain ⟨announcement, hmem, pfx, hpfx, hroute⟩ :=
    (Advertisement.mem_getAnnouncements_iff forms).mp h
  simp only [advertisementOf, Option.getD_some] at hmem
  obtain ⟨best, hbest, rfl⟩ := List.mem_map.mp hmem
  obtain rfl := List.mem_singleton.mp hpfx
  obtain ⟨hnextHop, hpath⟩ := Advertisement.route_eq_some forms hroute
  exact ⟨best, hbest, hnextHop, hpath, fromStrTruncate_of_route hroute,
    Advertisement.parse_peer_of_route forms hroute⟩

theorem withdrawn_of_told
    (h : route ∈ (advertisementOf forms setting timestamp pending).getWithdrawals forms) :
    ∃ best ∈ pending.2,
      forms.fromStrTruncate (forms.networkToString best.route.pfx) = some route.pfx := by
  obtain ⟨withdrawal, hmem, hroute⟩ := (Advertisement.mem_getWithdrawals_iff forms).mp h
  simp only [advertisementOf, Option.getD_some] at hmem
  obtain ⟨best, hbest, rfl⟩ := List.mem_map.mp hmem
  exact ⟨best, hbest, fromStrTruncate_of_route hroute⟩

/-- A decoded route comes from a text. -/
theorem exists_text_of_announced (h : route ∈ ad.getAnnouncements forms) :
    ∃ text, forms.fromStrTruncate text = some route.pfx := by
  obtain ⟨announcement, -, pfx, -, hroute⟩ := (Advertisement.mem_getAnnouncements_iff forms).mp h
  exact ⟨pfx, fromStrTruncate_of_route hroute⟩

theorem exists_text_of_withdrawn (h : route ∈ ad.getWithdrawals forms) :
    ∃ text, forms.fromStrTruncate text = some route.pfx := by
  obtain ⟨withdrawal, -, hroute⟩ := (Advertisement.mem_getWithdrawals_iff forms).mp h
  exact ⟨withdrawal, fromStrTruncate_of_route hroute⟩

end Decoding

section Closing
variable {ι : Type*} {forms : TextForms} {arrives : ChannelId → Advertisement → Prop}
  {settings : ι → Option Setting}

/-- The flow of what has an origin is never left. -/
theorem closed_originFlow (hforms : Reparses forms) (hfilters : FiltersKeep settings) :
    Closed forms (originFlow forms arrives settings) settings := by
  refine ⟨?_, ?_, ?_, ?_, ?_⟩
  · intro i setting port c ad hsetting hport hin hcarried hkeep
    rw [(hfilters i setting port hsetting hport ad).1]
    exact ⟨c, ⟨setting, port, hsetting, hport, hin, hkeep⟩, hcarried⟩
  · intro i ad route hinbound hroute
    refine ⟨exists_text_of_announced hroute, ?_⟩
    obtain ⟨c, haccepts, harrives | ⟨j, hwrites, hmade⟩⟩ := hinbound
    · exact ⟨i, c, ad, haccepts, harrives, ⟨route, hroute, rfl⟩, Relation.ReflTransGen.refl⟩
    · obtain ⟨setting, timestamp, pending, -, rfl, hannounced, -⟩ := hmade
      obtain ⟨best, hbest, hnextHop, -, hpfx, -⟩ := announced_of_told hroute
      obtain ⟨⟨text, htext⟩, horigin⟩ := hannounced best hbest
      rw [hforms text _ htext, Option.some.injEq] at hpfx
      have hfact := horigin.feeds ⟨c, hwrites, haccepts.reads⟩
      rw [hpfx, ← hnextHop] at hfact
      exact hfact
  · intro i ad route hinbound hroute
    refine ⟨exists_text_of_withdrawn hroute, ?_⟩
    obtain ⟨c, haccepts, harrives | ⟨j, hwrites, hmade⟩⟩ := hinbound
    · exact ⟨i, c, ad, haccepts, harrives, ⟨route, hroute, rfl⟩, Relation.ReflTransGen.refl⟩
    · obtain ⟨setting, timestamp, pending, -, rfl, -, hwithdrawn⟩ := hmade
      obtain ⟨best, hbest, hpfx⟩ := withdrawn_of_told hroute
      obtain ⟨⟨text, htext⟩, horigin⟩ := hwithdrawn best hbest
      rw [hforms text _ htext, Option.some.injEq] at hpfx
      have hfact := horigin.feeds ⟨c, hwrites, haccepts.reads⟩
      rw [hpfx] at hfact
      exact hfact
  · intro i setting timestamp pending hsetting hannounced hwithdrawn
    exact ⟨setting, timestamp, pending, hsetting, rfl, hannounced, hwithdrawn⟩
  · intro i setting port c ad hsetting hport hout hmade _
    rw [(hfilters i setting port hsetting hport ad).2]
    exact Or.inr ⟨i, ⟨setting, port, hsetting, hport, hout⟩, hmade⟩

end Closing

/-- Before the first cycle, with nothing pending. -/
def Untouched (thread : Thread) : Prop :=
  ∃ hosted, QuietProcess hosted.process ∧ thread = Thread.start hosted

section Starting
variable {ι : Type*} {forms : TextForms} {state : Threads ι} {flow : Flow ι} {i : ι}

theorem Untouched.within {self : Thread} (h : Untouched self) : Within flow i self := by
  obtain ⟨hosted, hquiet, rfl⟩ := h
  refine ⟨?_, ?_, trivial, ?_, ?_, ?_⟩
  · intro n interface hat
    obtain ⟨session, hsession, hinterface⟩ := Option.bind_eq_some_iff.mp hat
    obtain ⟨hin, hout⟩ :=
      hquiet.sessions session (List.mem_of_getElem? hsession) interface hinterface
    refine ⟨?_, ?_⟩
    · rw [hin]
      exact fun ad had => absurd had List.not_mem_nil
    · rw [hout]
      exact fun ad had => absurd had List.not_mem_nil
  · exact fun ad had => absurd had List.not_mem_nil
  · intro ad had
    have hnone : ad ∈ hosted.process.advertisement := had
    rw [hquiet.advertisement] at hnone
    exact absurd hnone List.not_mem_nil
  · intro best hbest
    have hnone : best ∈ hosted.process.ribInterface.bestrouteUpdates.1 := hbest
    rw [hquiet.reported] at hnone
    exact absurd hnone List.not_mem_nil
  · intro best hbest
    have hnone : best ∈ hosted.process.ribInterface.bestrouteUpdates.2 := hbest
    rw [hquiet.reported] at hnone
    exact absurd hnone List.not_mem_nil

end Starting

/-- Threads before their first cycles, on RIBs without routes. -/
structure Unstarted {ι : Type*} (state : Threads ι) : Prop where
  threads : ∀ i self, state.thread i = some self → Untouched self
  ribs : ∀ rib, ∃ ids : List Uuid,
    BgpRib.new.run (ids.map .registerRouter) = .ok (state.shared.ribs rib)

theorem exists_of_appliedLog {ι : Type*} {forms : TextForms} {rib : RibId} {client : Uuid}
    {history : List (Option ι × Effect)} {entry : Entry Route}
    (h : entry ∈ appliedLog forms rib client history) :
    ∃ actor ad, (actor, .apply rib client ad) ∈ history ∧ entry ∈ ad.entries forms := by
  obtain ⟨⟨actor, effect⟩, hmem, hentry⟩ := List.mem_flatMap.mp h
  cases effect with
  | apply other id ad =>
    by_cases hsame : other = rib ∧ id = client
    · obtain ⟨rfl, rfl⟩ := hsame
      simp only [appliedTo, and_self, if_true] at hentry
      exact ⟨actor, ad, hmem, hentry⟩
    · simp [appliedTo, hsame] at hentry
  | _ => simp [appliedTo] at hentry

theorem origin_of_carried {ι : Type*} {forms : TextForms} {state : Threads ι}
    {history : List (Option ι × Effect)} (hforms : Reparses forms)
    (hfilters : FiltersKeep (settings state)) {i : ι} {c : ChannelId} {ad : Advertisement}
    {route : Route}
    (haccepts : Accepts (settings state) i c ad)
    (hcarried : Carried forms (Arrives state history) (settings state) c ad)
    (hroute : route ∈ ad.getAnnouncements forms) :
    Origin (Announces forms) (Arrives state history) (settings state) i
      (route.pfx, route.nextHop) := by
  have hclosed : Closed forms (originFlow forms (Arrives state history) (settings state))
      (settings state) := closed_originFlow hforms hfilters
  exact (hclosed.announces i ad route ⟨c, haccepts, hcarried⟩ hroute).2

section Runs
variable {ι : Type*} [DecidableEq ι] {forms : TextForms} {state state' : Threads ι}
  {events : List (Event ι)} {history : List (Option ι × Effect)} {rib : RibId} {client : Uuid}

/-- An update of a RIB is a step of a thread of that RIB, in its own client's name. -/
theorem exists_of_apply (h : run forms state events = .ok (state', history))
    {actor : Option ι} {ad : Advertisement} (hmem : (actor, .apply rib client ad) ∈ history) :
    ∃ i setting, actor = some i ∧ settings state i = some setting ∧ setting.rib = rib ∧
      setting.clientId = client := by
  obtain ⟨before, after, rfl⟩ := List.append_of_mem hmem
  obtain ⟨earlier, event, later, reached, next, rfl, hearlier, hstep, -⟩ :=
    Runs.collect_eq_append_cons h
  obtain ⟨i, self, -, hactor, hself, hrib, hclient, -⟩ := apply_of_moves (moves_of_step hstep)
  have hsetting := (setting_run hearlier i).symm.trans (setting_of_thread hself)
  exact ⟨i, settingOf self, hactor, hsetting, hrib, hclient⟩

/-- What a network applies to its RIBs, and in whose name. -/
theorem Unstarted.applied (h : Unstarted state) (hforms : Reparses forms)
    (hfilters : FiltersKeep (settings state))
    (hrun : run forms state events = .ok (state', history)) {entry : Entry Route}
    (hentry : entry ∈ appliedLog forms rib client history) :
    ∃ i setting c ad, settings state i = some setting ∧ setting.rib = rib ∧
      setting.clientId = client ∧ Accepts (settings state) i c ad ∧
      Carried forms (Arrives state history) (settings state) c ad ∧ entry ∈ ad.entries forms := by
  obtain ⟨actor, ad, hmem, hentry⟩ := exists_of_appliedLog hentry
  obtain ⟨i, setting, rfl, hsetting, hrib, hclient⟩ := exists_of_apply hrun hmem
  have hkeeps : Keeps (originFlow forms (Arrives state history) (settings state)) state :=
    ⟨fun c ad had => Or.inl (Or.inl had), fun i self hself => (h.threads i self hself).within⟩
  obtain ⟨-, hshows⟩ := hkeeps.run_closed (closed_originFlow hforms hfilters) hrun
    (fun c ad had => Or.inl (Or.inr had))
  obtain ⟨c, haccepts, hcarried⟩ := hshows _ hmem
  exact ⟨i, setting, c, ad, hsetting, hrib, hclient, haccepts, hcarried, hentry⟩

/-- A held route was announced to a thread of its client that accepted the announcement. -/
theorem Unstarted.announced (h : Unstarted state) (hforms : Reparses forms)
    (hfilters : FiltersKeep (settings state))
    (hrun : run forms state events = .ok (state', history)) {network : IpNetwork} {route : Route}
    (hheld : route ∈ (state'.shared.ribs rib).held client network) :
    route.pfx = network ∧ ∃ i setting c ad, settings state i = some setting ∧
      setting.rib = rib ∧ setting.clientId = client ∧ Accepts (settings state) i c ad ∧
      Carried forms (Arrives state history) (settings state) c ad ∧
      route ∈ ad.getAnnouncements forms := by
  obtain ⟨ids, hids⟩ := h.ribs rib
  rw [ReferenceStores.mem_held_iff_live (Runs.run_append_ok.mpr ⟨_, hids, rib_run hrun rib⟩),
    ownLog_started] at hheld
  obtain ⟨hlive, hpfx⟩ := hheld
  obtain ⟨i, setting, c, ad, hsetting, hrib, hclient, haccepts, hcarried, hentry⟩ :=
    h.applied hforms hfilters hrun (add_mem_of_live Route.key hlive)
  have hroute : route ∈ ad.getAnnouncements forms := by
    simpa [Advertisement.entries] using hentry
  exact ⟨hpfx, i, setting, c, ad, hsetting, hrib, hclient, haccepts, hcarried, hroute⟩

/-- Where no filter rewrites an advertisement, in every interleaving and with any losses, a client
holds a prefix with a next hop only if an advertisement from outside announced that prefix with
that next hop to a thread that accepted it, and links lead from there to a thread of the client.
The route is the one that was announced, or it has no path and is a neighbour's. -/
theorem held_origin (forms : TextForms) (hforms : Reparses forms) (state state' : Threads ι)
    (hunstarted : Unstarted state) (hfilters : FiltersKeep (settings state))
    (events : List (Event ι)) (history : List (Option ι × Effect))
    (hrun : run forms state events = .ok (state', history)) (rib : RibId) (client : Uuid)
    (network : IpNetwork) (route : Route)
    (hheld : route ∈ (state'.shared.ribs rib).held client network) :
    ∃ i setting, settings state i = some setting ∧ setting.rib = rib ∧
      setting.clientId = client ∧
      Origin (Announces forms) (Arrives state history) (settings state) i
        (network, route.nextHop) ∧
      ((∃ c ad, Accepts (settings state) i c ad ∧ Arrives state history c ad ∧
          route ∈ ad.getAnnouncements forms) ∨
        (route.asPath = [] ∧ ∃ j neighbour, settings state j = some neighbour ∧
          Feeds (settings state) j i ∧
          forms.parse (forms.addrToString neighbour.config.ip) = some route.peer)) := by
  obtain ⟨rfl, i, setting, c, ad, hsetting, hrib, hclient, haccepts, hcarried, hroute⟩ :=
    hunstarted.announced hforms hfilters hrun hheld
  have horigin := origin_of_carried hforms hfilters haccepts hcarried hroute
  refine ⟨i, setting, hsetting, hrib, hclient, horigin, ?_⟩
  rcases hcarried with harrives | ⟨j, hwrites, neighbour, timestamp, pending, hneighbour, rfl, -, -⟩
  · exact Or.inl ⟨c, ad, haccepts, harrives, hroute⟩
  · obtain ⟨best, -, -, hpath, -, hpeer⟩ := announced_of_told hroute
    exact Or.inr ⟨hpath, j, neighbour, hneighbour, ⟨c, hwrites, haccepts.reads⟩, hpeer⟩

theorem reparses_sample : Reparses .sample := by
  intro text network htext
  have hnetwork : (.V4 (.around 0x0A000000#32 8)) = network := by
    by_cases h : text = "10.0.0.0/8"
    · simpa [TextForms.sample, h] using htext
    · simp [TextForms.sample, h] at htext
  rw [← hnetwork]
  rfl

theorem process_of_linked {i : ℕ} {self : Thread} (h : linkedThreads.thread i = some self) :
    ∃ client rib inChannel outChannel,
      self = Thread.start (linkedProcess client rib inChannel outChannel) := by
  rcases linkedThreads_cases h with ⟨-, rfl⟩ | ⟨-, rfl⟩
  · exact ⟨1, 0, 0, 1, rfl⟩
  · exact ⟨2, 1, 1, 2, rfl⟩

theorem quiet_linked (client : Uuid) (rib : RibId) {inChannel outChannel : ChannelId}
    {session : BgpSession}
    (h : session ∈ (linkedProcess client rib inChannel outChannel).process.sessions) :
    QuietSession session := by
  intro interface hinterface
  obtain rfl := List.mem_singleton.mp h
  obtain rfl := Option.some.inj hinterface
  exact ⟨rfl, rfl⟩

theorem unstarted_linked : Unstarted linkedThreads := by
  refine ⟨?_, fun rib => ⟨[], rfl⟩⟩
  intro i self hself
  obtain ⟨client, rib, inChannel, outChannel, rfl⟩ := process_of_linked hself
  exact ⟨_, ⟨fun session hsession => quiet_linked _ _ hsession, rfl, rfl, rfl⟩, rfl⟩

theorem filtersKeep_linked : FiltersKeep (settings linkedThreads) := by
  intro i setting port hsetting hport ad
  obtain ⟨self, hself, rfl⟩ := Option.map_eq_some_iff.mp hsetting
  obtain ⟨client, rib, inChannel, outChannel, rfl⟩ := process_of_linked hself
  obtain rfl := Option.some.inj (List.mem_singleton.mp hport)
  exact ⟨rfl, rfl⟩

theorem held_origin_linked :
    ∃ state' history,
      run .sample linkedThreads (announcingEvents "10.0.0.2") = .ok (state', history) ∧
      ∃ i setting, settings linkedThreads i = some setting ∧ setting.rib = 1 ∧
        Origin (Announces .sample) (Arrives linkedThreads history) (settings linkedThreads) i
          (.V4 (.around 0x0A000000#32 8), "10.0.0.2") := by
  obtain ⟨state', history, hrun, hheld⟩ := exists_announcing
  obtain ⟨i, setting, hsetting, hrib, -, horigin, -⟩ := held_origin .sample reparses_sample
    linkedThreads state' unstarted_linked filtersKeep_linked _ history hrun 1 2 _ _ hheld
  exact ⟨state', history, hrun, i, setting, hsetting, hrib, horigin⟩

/-- Where no filter rewrites an advertisement, a client loses a route only if an advertisement from
outside withdrew its prefix at a thread that accepted it, and links lead from there to a thread of
the client. -/
theorem lost_origin (forms : TextForms) (hforms : Reparses forms) (state middle state' : Threads ι)
    (hunstarted : Unstarted state) (hfilters : FiltersKeep (settings state))
    (earlier later : List (Event ι)) (before after : List (Option ι × Effect))
    (hearlier : run forms state earlier = .ok (middle, before))
    (hlater : run forms middle later = .ok (state', after)) (rib : RibId) (client : Uuid)
    (network : IpNetwork) (route : Route)
    (hheld : route ∈ (middle.shared.ribs rib).held client network)
    (hlost : route ∉ (state'.shared.ribs rib).held client network) :
    ∃ i setting, settings state i = some setting ∧ setting.rib = rib ∧
      setting.clientId = client ∧
      Origin (Withdraws forms) (Arrives state (before ++ after)) (settings state) i network := by
  obtain ⟨ids, hids⟩ := hunstarted.ribs rib
  have hrun : run forms state (earlier ++ later) = .ok (state', before ++ after) :=
    run_append hearlier hlater
  rw [ReferenceStores.mem_held_iff_live (Runs.run_append_ok.mpr ⟨_, hids, rib_run hearlier rib⟩),
    ownLog_started] at hheld
  rw [ReferenceStores.mem_held_iff_live (Runs.run_append_ok.mpr ⟨_, hids, rib_run hrun rib⟩),
    ownLog_started] at hlost
  obtain ⟨hlive, rfl⟩ := hheld
  have hlog : appliedLog forms rib client (before ++ after) =
      appliedLog forms rib client before ++ appliedLog forms rib client after :=
    List.flatMap_append
  have hretracted : ∃ w, Entry.retract w ∈ appliedLog forms rib client after ∧
      Route.key w = Route.key route := by
    by_contra hnone
    refine hlost ⟨?_, rfl⟩
    rw [hlog, live_append]
    exact Or.inr ⟨hlive, fun w hw hkey => hnone ⟨w, hw, hkey⟩⟩
  obtain ⟨w, hw, hkey⟩ := hretracted
  have hmem : Entry.retract w ∈ appliedLog forms rib client (before ++ after) := by
    rw [hlog]
    exact List.mem_append_right _ hw
  obtain ⟨i, setting, c, ad, hsetting, hrib, hclient, haccepts, hcarried, hentry⟩ :=
    hunstarted.applied hforms hfilters hrun hmem
  have hroute : w ∈ ad.getWithdrawals forms := by
    simpa [Advertisement.entries] using hentry
  have hclosed : Closed forms (originFlow forms (Arrives state (before ++ after)) (settings state))
      (settings state) := closed_originFlow hforms hfilters
  obtain ⟨-, horigin⟩ := hclosed.withdraws i ad w ⟨c, haccepts, hcarried⟩ hroute
  have hpfx : w.pfx = route.pfx := congrArg Prod.snd hkey
  refine ⟨i, setting, hsetting, hrib, hclient, ?_⟩
  rw [← hpfx]
  exact horigin

/-- A cycle of each thread, with a withdrawal for the first. -/
def withdrawingEvents : List (Event ℕ) :=
  .arrive 0 (.advertisement (.sample "10.0.0.2" "" [65001] false true)) ::
    (List.replicate 11 (.act 0 ⟨.acquired, 1⟩) ++ List.replicate 11 (.act 1 ⟨.acquired, 1⟩))

/-- The route of the second thread is lost when the first hears of a withdrawal. -/
theorem exists_withdrawing :
    ∃ middle before state' after,
      run .sample linkedThreads (announcingEvents "") = .ok (middle, before) ∧
      run .sample middle withdrawingEvents = .ok (state', after) ∧
      (⟨.V4 0x0A000001#32, .V4 (.around 0x0A000000#32 8), "", []⟩ : Route) ∈
        (middle.shared.ribs 1).held 2 (.V4 (.around 0x0A000000#32 8)) ∧
      (⟨.V4 0x0A000001#32, .V4 (.around 0x0A000000#32 8), "", []⟩ : Route) ∉
        (state'.shared.ribs 1).held 2 (.V4 (.around 0x0A000000#32 8)) :=
  ⟨_, _, _, _, rfl, rfl, by decide, by decide⟩

theorem lost_origin_linked :
    ∃ middle before state' after,
      run .sample linkedThreads (announcingEvents "") = .ok (middle, before) ∧
      run .sample middle withdrawingEvents = .ok (state', after) ∧
      ∃ i setting, settings linkedThreads i = some setting ∧ setting.rib = 1 ∧
        Origin (Withdraws .sample) (Arrives linkedThreads (before ++ after))
          (settings linkedThreads) i (.V4 (.around 0x0A000000#32 8)) := by
  obtain ⟨middle, before, state', after, hearlier, hlater, hheld, hlost⟩ := exists_withdrawing
  obtain ⟨i, setting, hsetting, hrib, -, horigin⟩ := lost_origin .sample reparses_sample
    linkedThreads middle state' unstarted_linked filtersKeep_linked _ _ before after hearlier hlater
    1 2 _ _ hheld hlost
  exact ⟨middle, before, state', after, hearlier, hlater, i, setting, hsetting, hrib, horigin⟩

end Runs

end NetfabricBgp.Origins
