import NetfabricBgp.JoinedSessions
import NetfabricBgp.QuietNetworks
import NetfabricBgp.Speakers
import NetfabricBgp.ThreadCycles

/-!
The threads of a network that is made from a topology. Every process has a RIB of its own, so
no interleaving panics, and each process is a speaker: whatever the threads of the others do
meanwhile, its routes and what it tells are a function of what its own thread has applied.
-/
namespace NetfabricBgp.TopologyThreads

open RouterMasks Ribs RibInvariants RibInterfaces Advertisements KeyedLog Channels Interfaces
  Sessions Processes Supplies MessageBuses Topologies Routers Networks ClientTables LinkThreads
  TopologyWirings JoinedSessions QuietNetworks ProcessThreads ThreadSteps ThreadHistories
  ThreadCycles Speakers

/-- The RIB of a process, and the process's access to it. -/
def homeOf (hosted : HostedProcess) : RibId × BgpRibInterface :=
  (hosted.rib, hosted.process.ribInterface)

/-- No routes, and at most one registered client. -/
def Unwritten (rib : BgpRib) : Prop :=
  ∃ ids : List Uuid, ids.length ≤ 1 ∧ BgpRib.new.run (ids.map .registerRouter) = .ok rib

/-- The processes are clients under the names of their routers, each of an unwritten RIB that
no other process uses, and have nothing to tell yet. -/
structure Housed (state : NetworkManager × Supply) : Prop where
  below : ∀ place hosted, hostedAt state.1 place = some hosted →
    hosted.rib < state.2.nextRib ∧ hosted.process.ribInterface = ⟨place.1, [], []⟩
  own : ∀ place place' hosted hosted', hostedAt state.1 place = some hosted →
    hostedAt state.1 place' = some hosted' → hosted.rib = hosted'.rib → place = place'
  unwritten : ∀ rib, Unwritten (state.2.ribs rib)

section Making
variable {forms : TextForms} {uuids : ℕ → Uuid}

theorem unwritten_new : Unwritten BgpRib.new := ⟨[], Nat.zero_le 1, rfl⟩

/-- Nothing pending, and no sessions. -/
def Bare (process : BgpProcess) : Prop := QuietProcess process ∧ process.sessions = []

/-- The RIB and the number that a new process gets. -/
theorem fromConfig_home {supply supply' : Supply} {config : ProcessConfig} {hosted : HostedProcess}
    (h : HostedProcess.fromConfig uuids supply config = .ok (hosted, supply')) :
    hosted.rib = supply.nextRib ∧ Bare hosted.process ∧ supply'.nextRib = supply.nextRib + 1 ∧
      ∃ rib, Unwritten rib ∧ supply'.ribs = Function.update supply.ribs supply.nextRib rib := by
  unfold HostedProcess.fromConfig HostedProcess.new at h
  simp only [Supply.newV4] at h
  rcases hnew : BgpRibInterface.new BgpRib.new (uuids (supply.drawn + 1)) with
    panic | ⟨rib, ribInterface⟩
  · simp [hnew] at h
  · simp only [hnew, Supply.newRib, Except.ok.injEq, Prod.mk.injEq] at h
    obtain ⟨rfl, rfl⟩ := h
    unfold BgpRibInterface.new at hnew
    rcases hregister : BgpRib.new.registerRouter (uuids (supply.drawn + 1)) with panic | rib'
    · simp [hregister] at hnew
    · simp only [hregister, Except.ok.injEq, Prod.mk.injEq] at hnew
      obtain ⟨rfl, rfl⟩ := hnew
      refine ⟨rfl, ⟨⟨?_, rfl, rfl, rfl⟩, rfl⟩, rfl, rib', ⟨[uuids (supply.drawn + 1)],
        Nat.le_refl 1, ?_⟩, rfl⟩
      · exact fun session hsession => absurd hsession List.not_mem_nil
      · exact Runs.run_cons_ok.mpr ⟨rib', hregister, rfl⟩

/-- Another RIB for the next number. -/
theorem unwritten_update {supply supply' : Supply} {rib : BgpRib}
    (hunwritten : ∀ id, Unwritten (supply.ribs id)) (hrib : Unwritten rib)
    (hribs : supply'.ribs = Function.update supply.ribs supply.nextRib rib) (id : RibId) :
    Unwritten (supply'.ribs id) := by
  rw [hribs]
  by_cases hid : id = supply.nextRib
  · subst hid
    rwa [Function.update_self]
  · rw [Function.update_of_ne hid]
    exact hunwritten id

theorem hostedAt_insert (network : NetworkManager) (id : Uuid) (router : Router)
    (place : Uuid × ℕ) :
    hostedAt { network with routers := network.routers.insert id router } place =
      if place.1 = id then router.bgpProcesses[place.2]? else hostedAt network place := by
  unfold hostedAt
  by_cases hid : place.1 = id
  · rw [if_pos hid, hid, Finmap.lookup_insert]
    rfl
  · rw [if_neg hid, Finmap.lookup_insert_of_ne _ hid]

/-- A new router has one process, and no other router changes. -/
theorem hostedAt_createRouter {state state' : NetworkManager × Supply}
    {vertex : Uuid × NetworkTopologyVertex}
    (hcreate : NetworkManager.createRouter uuids state vertex = .ok state') :
    ∃ hosted, HostedProcess.fromConfig uuids state.2 vertex.2.processConfig =
        .ok (hosted, state'.2) ∧ state'.1.rib = state.1.rib ∧
      ∀ place other, hostedAt state'.1 place = some other →
        (place = (vertex.1, 0) ∧
          other = (hosted.setRouterId vertex.1).setRouterId vertex.1) ∨
        (place.1 ≠ vertex.1 ∧ hostedAt state.1 place = some other) := by
  obtain ⟨network, supply⟩ := state
  simp only [NetworkManager.createRouter] at hcreate
  rcases hfrom : HostedProcess.fromConfig uuids supply vertex.2.processConfig with
    panic | ⟨hosted, supply'⟩
  · simp [hfrom] at hcreate
  simp only [hfrom, NetworkManager.insertRouter] at hcreate
  by_cases hmem : vertex.1 ∈ network.routers
  · simp [Router.new, Router.withOptions, Router.addBgpProcess, hmem] at hcreate
  let made := (hosted.setRouterId vertex.1).setRouterId vertex.1
  let router : Router := ⟨vertex.1, vertex.2.routerOptions, [made]⟩
  have hstate : state' =
      ({ network with routers := network.routers.insert vertex.1 router }, supply') := by
    simpa [Router.new, Router.withOptions, Router.addBgpProcess, hmem, made, router] using
      hcreate.symm
  subst hstate
  refine ⟨hosted, rfl, rfl, ?_⟩
  intro place other hother
  rw [hostedAt_insert] at hother
  by_cases hid : place.1 = vertex.1
  · rw [if_pos hid] at hother
    obtain ⟨id, n⟩ := place
    cases n with
    | zero =>
      left
      obtain rfl := Option.some.inj hother
      exact ⟨Prod.ext hid rfl, rfl⟩
    | succ n => simp [router] at hother
  · rw [if_neg hid] at hother
    exact Or.inr ⟨hid, hother⟩

/-- A new router has a new RIB. -/
theorem Housed.createRouter {state state' : NetworkManager × Supply}
    {vertex : Uuid × NetworkTopologyVertex} (h : Housed state)
    (hcreate : NetworkManager.createRouter uuids state vertex = .ok state') : Housed state' := by
  obtain ⟨hosted, hfrom, -, hcases⟩ := hostedAt_createRouter hcreate
  obtain ⟨hrib, hquiet, hnext, rib, hunwritten, hribs⟩ := fromConfig_home hfrom
  let made := (hosted.setRouterId vertex.1).setRouterId vertex.1
  have hmade : made.rib = state.2.nextRib := hrib
  have hclient : made.process.ribInterface = ⟨vertex.1, [], []⟩ := by
    show BgpRibInterface.mk vertex.1 hosted.process.ribInterface.bestrouteUpdates = _
    rw [hquiet.1.reported]
  refine ⟨?_, ?_, unwritten_update h.unwritten hunwritten hribs⟩
  · intro place other hother
    rcases hcases place other hother with ⟨rfl, rfl⟩ | ⟨-, hold⟩
    · refine ⟨?_, hclient⟩
      rw [hnext]
      exact Nat.lt_succ_of_le (Nat.le_of_eq hmade)
    · obtain ⟨hlt, hinterface⟩ := h.below place other hold
      refine ⟨?_, hinterface⟩
      rw [hnext]
      exact Nat.lt_succ_of_lt hlt
  · intro place place' other other' hother hother' hsame
    rcases hcases place other hother with ⟨rfl, rfl⟩ | ⟨hne, hold⟩
    · rcases hcases place' other' hother' with ⟨rfl, -⟩ | ⟨-, hold'⟩
      · rfl
      · have hlt : other'.rib < state.2.nextRib := (h.below place' other' hold').1
        rw [← hsame] at hlt
        exact absurd (hmade ▸ hlt) (Nat.lt_irrefl _)
    · rcases hcases place' other' hother' with ⟨-, rfl⟩ | ⟨-, hold'⟩
      · have hlt : other.rib < state.2.nextRib := (h.below place other hold).1
        rw [hsame] at hlt
        exact absurd (hmade ▸ hlt) (Nat.lt_irrefl _)
      · exact h.own place place' other other' hold hold' hsame

/-- Only the homes of the processes matter here. -/
theorem Housed.congr {state state' : NetworkManager × Supply} (h : Housed state)
    (hribs : state'.2.ribs = state.2.ribs) (hnext : state'.2.nextRib = state.2.nextRib)
    (hhomes : ∀ place, (hostedAt state'.1 place).map homeOf = (hostedAt state.1 place).map homeOf) :
    Housed state' := by
  have hold : ∀ place hosted', hostedAt state'.1 place = some hosted' →
      ∃ hosted, hostedAt state.1 place = some hosted ∧ homeOf hosted' = homeOf hosted := by
    intro place hosted' hhosted'
    have hhome := hhomes place
    rw [hhosted', Option.map_some] at hhome
    obtain ⟨hosted, hhosted, hsame⟩ := Option.map_eq_some_iff.mp hhome.symm
    exact ⟨hosted, hhosted, hsame.symm⟩
  refine ⟨?_, ?_, ?_⟩
  · intro place hosted' hhosted'
    obtain ⟨hosted, hhosted, hsame⟩ := hold place hosted' hhosted'
    obtain ⟨hrib, hinterface⟩ := Prod.mk.inj hsame
    rw [hnext, hrib, hinterface]
    exact h.below place hosted hhosted
  · intro place place' other' another' hother' hanother' hrib
    obtain ⟨other, hother, hsame⟩ := hold place other' hother'
    obtain ⟨another, hanother, hsame'⟩ := hold place' another' hanother'
    refine h.own place place' other another hother hanother ?_
    rw [← (Prod.mk.inj hsame).1, hrib, (Prod.mk.inj hsame').1]
  · intro rib
    rw [hribs]
    exact h.unwritten rib

/-- A pair of channels for a link uses no RIB. -/
theorem channelPairWithId_ribs (bus : MessageBus) (supply : Supply) (bound : ℕ) (id : Uuid) :
    (bus.channelPairWithId supply bound id).2.1.ribs = supply.ribs ∧
      (bus.channelPairWithId supply bound id).2.1.nextRib = supply.nextRib := by
  have hcreated : ∀ created,
      (if bus.channelExists id then Except.ok (bus, supply)
        else bus.createChannelWithUuid supply bound id) = .ok created →
        created.2.ribs = supply.ribs ∧ created.2.nextRib = supply.nextRib := by
    intro created hcreated
    by_cases hexists : bus.channelExists id = true
    · rw [if_pos hexists] at hcreated
      obtain rfl := Except.ok.inj hcreated
      exact ⟨rfl, rfl⟩
    · rw [if_neg hexists, MessageBus.createChannelWithUuid] at hcreated
      by_cases hused : id ∈ bus.senders ∨ id ∈ bus.receivers
      · rw [if_pos hused] at hcreated
        cases hcreated
      · rw [if_neg hused] at hcreated
        obtain rfl := Except.ok.inj hcreated
        exact ⟨rfl, rfl⟩
  unfold MessageBus.channelPairWithId
  rcases hpair : (if bus.channelExists id then Except.ok (bus, supply)
    else bus.createChannelWithUuid supply bound id) with e | ⟨created, supply'⟩
  · exact ⟨rfl, rfl⟩
  · have hkeeps := hcreated _ hpair
    simp only
    cases created.subscribe id with
    | error e => exact hkeeps
    | ok subscribed =>
      simp only
      cases subscribed.1.publish id <;> exact hkeeps

theorem getMessageBusChannelPair_keeps {network network' : NetworkManager}
    {supply supply' : Supply} {bound : ℕ} {tx rx : ChannelId}
    (h : network.getMessageBusChannelPair forms uuids supply bound =
      .ok (network', supply', tx, rx)) :
    network'.routers = network.routers ∧ network'.rib = network.rib ∧
      supply'.ribs = supply.ribs ∧ supply'.nextRib = supply.nextRib := by
  have hribs := channelPairWithId_ribs network.threadManager.messageBus
    { supply with drawn := supply.drawn + 1 } bound (uuids supply.drawn)
  simp only [NetworkManager.getMessageBusChannelPair, ThreadManager.getMessageBusChannelPair,
    Supply.newV4, ThreadManager.getMessageBusChannelPairWithId_eq] at h
  rcases hpair : network.threadManager.messageBus.channelPairWithId
    { supply with drawn := supply.drawn + 1 } bound (uuids supply.drawn) with
    ⟨messageBus, supply'', e | ⟨sender, receiver⟩⟩
  · simp [hpair] at h
  · rw [hpair] at hribs
    simp only [hpair, Except.ok.injEq, Prod.mk.injEq] at h
    obtain ⟨rfl, rfl, -, -⟩ := h
    exact ⟨rfl, rfl, hribs⟩

/-- A session as `new_bgp_session_pair` makes it. -/
def NewSession (session : BgpSession) : Prop :=
  ∃ config inChannel outChannel, BgpSession.MadeWith config inChannel outChannel session

theorem newBgpSessionPair_keeps {network network' : NetworkManager} {supply supply' : Supply}
    {config1 config2 : SessionConfig} {bound : ℕ} {session1 session2 : BgpSession}
    (h : network.newBgpSessionPair forms uuids supply config1 config2 bound =
      .ok (network', supply', session1, session2)) :
    network'.routers = network.routers ∧ network'.rib = network.rib ∧
      supply'.ribs = supply.ribs ∧ supply'.nextRib = supply.nextRib ∧ NewSession session1 ∧
      NewSession session2 := by
  simp only [NetworkManager.newBgpSessionPair, NetworkManager.newInterfacePair, Supply.newV4] at h
  rcases hfirst : network.getMessageBusChannelPair forms uuids
    { supply with drawn := supply.drawn + 1 + 1 } bound with e | ⟨network1, supply1, tx1, rx1⟩
  · simp [hfirst] at h
  rcases hsecond : network1.getMessageBusChannelPair forms uuids supply1 bound with
    e | ⟨network2, supply2, tx2, rx2⟩
  · simp [hfirst, hsecond] at h
  simp only [hfirst, hsecond, Except.ok.injEq, Prod.mk.injEq] at h
  obtain ⟨rfl, rfl, rfl, rfl⟩ := h
  obtain ⟨hrouters, hrib, hribs, hnext⟩ := getMessageBusChannelPair_keeps hfirst
  obtain ⟨hrouters', hrib', hribs', hnext'⟩ := getMessageBusChannelPair_keeps hsecond
  exact ⟨hrouters'.trans hrouters, hrib'.trans hrib, hribs'.trans hribs, hnext'.trans hnext,
    ⟨config1, rx2, tx1, rfl, _, rfl, _, rfl⟩, ⟨config2, rx1, tx2, rfl, _, rfl, _, rfl⟩⟩

/-- The process with some more sessions, which are new. -/
def Extends (hosted hosted' : HostedProcess) : Prop :=
  ∃ more, (∀ session ∈ more, NewSession session) ∧
    hosted' = { hosted with process :=
      { hosted.process with sessions := hosted.process.sessions ++ more } }

theorem extends_self (hosted : HostedProcess) : Extends hosted hosted :=
  ⟨[], fun session hsession => absurd hsession List.not_mem_nil, by simp⟩

theorem rel_extends_self (found : Option HostedProcess) : Option.Rel Extends found found := by
  cases found with
  | none => exact .none
  | some hosted => exact .some (extends_self hosted)

/-- Attaching a session only adds it. -/
theorem attach_extends {router router' : Router} {session : BgpSession}
    (hnew : NewSession session) (h : Networks.attach router session = .ok router') (n : ℕ) :
    Option.Rel Extends router.bgpProcesses[n]? router'.bgpProcesses[n]? := by
  unfold Networks.attach at h
  cases hprocesses : router.bgpProcesses with
  | nil => simp [hprocesses] at h
  | cons process rest =>
    simp only [hprocesses, Except.ok.injEq] at h
    subst h
    cases n with
    | zero =>
      refine .some ⟨[session], ?_, rfl⟩
      intro other hother
      exact List.mem_singleton.mp hother ▸ hnew
    | succ n => exact rel_extends_self _

theorem getRouterPairMut_ok {network : NetworkManager} {id1 id2 : Uuid} {router1 router2 : Router}
    (h : network.getRouterPairMut id1 id2 = .ok (router1, router2)) :
    network.routers.lookup id1 = some router1 ∧ network.routers.lookup id2 = some router2 := by
  unfold NetworkManager.getRouterPairMut at h
  cases hlookup1 : network.routers.lookup id1 with
  | none => simp [hlookup1] at h
  | some found1 =>
    cases hlookup2 : network.routers.lookup id2 with
    | none => simp [hlookup1, hlookup2] at h
    | some found2 =>
      by_cases hsame : id1 = id2
      · simp [hlookup1, hlookup2, hsame] at h
      · simp only [hlookup1, hlookup2, hsame, if_false, Except.ok.injEq, Prod.mk.injEq] at h
        obtain ⟨rfl, rfl⟩ := h
        exact ⟨rfl, rfl⟩

/-- Joining two routers gives their processes new sessions, and changes nothing else. -/
theorem hostedAt_createSessions {state state' : NetworkManager × Supply}
    {edge : Uuid × Uuid × NetworkTopologyEdge}
    (hcreate : NetworkManager.createSessions forms uuids state edge = .ok state') :
    state'.1.rib = state.1.rib ∧ state'.2.ribs = state.2.ribs ∧
      state'.2.nextRib = state.2.nextRib ∧
      ∀ place, Option.Rel Extends (hostedAt state.1 place) (hostedAt state'.1 place) := by
  obtain ⟨network, supply⟩ := state
  obtain ⟨id1, id2, label⟩ := edge
  simp only [NetworkManager.createSessions] at hcreate
  rcases hpair : network.newBgpSessionPair forms uuids supply label.sessionConfigs.1
    label.sessionConfigs.2 label.linkBufferSize.toNat with
    e | ⟨network', supply', session1, session2⟩
  · simp [hpair] at hcreate
  rcases hrouters : network'.getRouterPairMut id1 id2 with e | ⟨router1, router2⟩
  · simp [hpair, hrouters] at hcreate
  rcases hattach1 : Networks.attach router1 session1 with e | router1'
  · simp [hpair, hrouters, hattach1] at hcreate
  rcases hattach2 : Networks.attach router2 session2 with e | router2'
  · simp [hpair, hrouters, hattach1, hattach2] at hcreate
  simp only [hpair, hrouters, hattach1, hattach2, Except.ok.injEq] at hcreate
  subst hcreate
  obtain ⟨hsame, hrib, hribs, hnext, hnew1, hnew2⟩ := newBgpSessionPair_keeps hpair
  obtain ⟨hlookup1, hlookup2⟩ := getRouterPairMut_ok hrouters
  refine ⟨hrib, hribs, hnext, ?_⟩
  intro place
  have hat : hostedAt network place = hostedAt network' place := by
    unfold hostedAt
    rw [hsame]
  rw [hat, hostedAt_insert { network' with routers := network'.routers.insert id1 router1' }]
  by_cases hid2 : place.1 = id2
  · rw [if_pos hid2, hostedAt, hid2, hlookup2]
    exact attach_extends hnew2 hattach2 place.2
  · rw [if_neg hid2, hostedAt_insert]
    by_cases hid1 : place.1 = id1
    · rw [if_pos hid1, hostedAt, hid1, hlookup1]
      exact attach_extends hnew1 hattach1 place.2
    · rw [if_neg hid1]
      exact rel_extends_self _

theorem Housed.createSessions {state state' : NetworkManager × Supply}
    {edge : Uuid × Uuid × NetworkTopologyEdge} (h : Housed state)
    (hcreate : NetworkManager.createSessions forms uuids state edge = .ok state') :
    Housed state' := by
  obtain ⟨-, hribs, hnext, hextends⟩ := hostedAt_createSessions hcreate
  refine h.congr hribs hnext ?_
  intro place
  have hplace := hextends place
  generalize hostedAt state.1 place = before, hostedAt state'.1 place = after at hplace
  cases hplace with
  | none => rfl
  | some hmore =>
    obtain ⟨more, -, rfl⟩ := hmore
    rfl

/-- A new network has no processes yet. -/
theorem housed_new (threadManager : ThreadManager) {supply : Supply}
    (hunwritten : ∀ rib, Unwritten (supply.ribs rib)) :
    Housed (NetworkManager.new threadManager supply) := by
  have hnone : ∀ place, hostedAt (NetworkManager.new threadManager supply).1 place = none := by
    intro place
    unfold hostedAt
    rw [show (NetworkManager.new threadManager supply).1.routers = ∅ from rfl, Finmap.lookup_empty]
    rfl
  refine ⟨?_, ?_, ?_⟩
  · intro place hosted hhosted
    rw [hnone] at hhosted
    cases hhosted
  · intro place place' hosted hosted' hhosted
    rw [hnone] at hhosted
    cases hhosted
  · exact unwritten_update hunwritten unwritten_new rfl

theorem housed_fromTopology {topology : NetworkTopology} {threadManager : ThreadManager}
    {supply : Supply} {state : NetworkManager × Supply}
    (hunwritten : ∀ rib, Unwritten (supply.ribs rib))
    (h : NetworkManager.fromTopology forms uuids topology threadManager supply = .ok state) :
    Housed state := by
  unfold NetworkManager.fromTopology at h
  rcases hvertices : Runs.run (NetworkManager.createRouter uuids)
    (NetworkManager.new threadManager supply) topology.vertices with e | routers
  · simp [hvertices] at h
  · simp only [hvertices] at h
    have hhoused := Runs.run_invariant Housed (fun _ _ _ => Housed.createRouter)
      (housed_new threadManager hunwritten) hvertices
    exact Runs.run_invariant Housed (fun _ _ _ => Housed.createSessions) hhoused h

/-- What `from_topology` has made, with some identifiers left. -/
theorem built_before {topology : NetworkTopology} {manager : ThreadManager} {start : Supply}
    {count : ℕ} (htopology : topology.WellFormed)
    (hloops : ∀ edge ∈ topology.edges, edge.1 ≠ edge.2.1)
    (hcount : 2 * topology.vertices.length + 6 * topology.edges.length ≤ count)
    (hfresh : Fresh uuids manager.messageBus start.drawn count) :
    ∃ state, NetworkManager.fromTopology forms uuids topology manager start = .ok state ∧
      Built uuids start (start.drawn + count) topology.vertices topology.edges state := by
  obtain ⟨created, hcreated, hrouters⟩ :=
    (@built_new uuids start _ manager hfresh.unused).createRouters htopology.distinct
  obtain ⟨joined, hjoined, hsessions⟩ := @Built.createAllSessions forms _ _ _ _ _ _ hrouters
    htopology.ends hloops (by omega) hfresh.distinct
  refine ⟨joined, ?_, hsessions⟩
  simp only [NetworkManager.fromTopology, hcreated, hjoined]

/-- The identifiers that are left are enough for what comes next. -/
theorem fresh_rest {topology : NetworkTopology} {manager : ThreadManager} {start : Supply}
    {state : NetworkManager × Supply} {count more : ℕ}
    (hfresh : Fresh uuids manager.messageBus start.drawn count)
    (hcount : 2 * topology.vertices.length + 6 * topology.edges.length + more ≤ count)
    (h : Built uuids start (start.drawn + count) topology.vertices topology.edges state) :
    Fresh uuids state.1.threadManager.messageBus state.2.drawn more := by
  have hdrawn := h.drawn
  refine ⟨?_, ?_⟩
  · intro m n hm hmn hn
    exact hfresh.distinct m n (by omega) hmn (by omega)
  · intro n hle hlt
    exact h.unused n hle (by omega)

end Making

section Running
variable {forms : TextForms} {state : NetworkManager × Supply}

theorem keys_unwritten {rib : BgpRib} {ids : List Uuid}
    (h : BgpRib.new.run (ids.map .registerRouter) = .ok rib) :
    rib.routerMaskMap.map.keys = ids.toFinset := by
  have hrouter : BgpRib.Op.router ∘ BgpRib.Op.registerRouter = fun x => x := rfl
  have hempty : BgpRib.new.routerMaskMap.map.keys = ∅ := Finmap.keys_empty
  rw [keys_run h, List.map_map, hrouter, List.map_id', hempty, Finset.empty_union]

theorem thread_threadsOf {place : Uuid × ℕ} {self : Thread}
    (h : (threadsOf state).thread place = some self) :
    ∃ hosted, hostedAt state.1 place = some hosted ∧ self = Thread.start hosted := by
  obtain ⟨hosted, hhosted, rfl⟩ := Option.map_eq_some_iff.mp h
  exact ⟨hosted, hhosted, rfl⟩

/-- At most two clients of any RIB: the one it was made for, and the router. -/
theorem Housed.roomy (h : Housed state) : Roomy (threadsOf state) := by
  refine ⟨?_, ?_⟩
  · intro rib
    obtain ⟨ids, -, hrun⟩ := h.unwritten rib
    exact wellFormed_run wellFormed_new hrun
  · intro rib
    obtain ⟨ids, hlen, hrun⟩ := h.unwritten rib
    have hcard : ids.toFinset.card ≤ 1 := (List.toFinset_card_le ids).trans hlen
    by_cases hused : ∃ place hosted, hostedAt state.1 place = some hosted ∧ hosted.rib = rib
    · obtain ⟨place, hosted, hhosted, hrib⟩ := hused
      refine ⟨insert hosted.process.ribInterface.clientId ids.toFinset, ?_, ?_, ?_⟩
      · have hinsert := Finset.card_insert_le hosted.process.ribInterface.clientId ids.toFinset
        omega
      · show (state.2.ribs rib).routerMaskMap.map.keys ⊆ _
        rw [keys_unwritten hrun]
        exact Finset.subset_insert _ _
      · intro place' self hself hrib'
        obtain ⟨hosted', hhosted', rfl⟩ := thread_threadsOf hself
        have hsame : hosted'.rib = hosted.rib := Eq.trans hrib' hrib.symm
        obtain rfl := h.own place' place hosted' hosted hhosted' hhosted hsame
        obtain rfl := Option.some.inj (hhosted.symm.trans hhosted')
        exact Finset.mem_insert_self _ _
    · refine ⟨ids.toFinset, by omega, ?_, ?_⟩
      · show (state.2.ribs rib).routerMaskMap.map.keys ⊆ _
        rw [keys_unwritten hrun]
      · intro place self hself hrib
        obtain ⟨hosted, hhosted, rfl⟩ := thread_threadsOf hself
        exact absurd ⟨place, hosted, hhosted, hrib⟩ hused

/-- At the start each process is a speaker that has heard nothing. -/
theorem Housed.speaks (h : Housed state) {place : Uuid × ℕ} {hosted : HostedProcess}
    (hhosted : hostedAt state.1 place = some hosted) :
    SpeaksIn (threadsOf state) place (settingOf (Thread.start hosted)) .silent := by
  obtain ⟨ids, hlen, hrun⟩ := h.unwritten hosted.rib
  obtain ⟨-, hinterface⟩ := h.below place hosted hhosted
  have hthread : (threadsOf state).thread place = some (Thread.start hosted) := by
    show (hostedAt state.1 place).map Thread.start = _
    rw [hhosted]
    rfl
  refine ⟨⟨Thread.start hosted, hthread, rfl, ?_, ?_⟩, ?_⟩
  · apply represents_of_startsEmpty
    refine ⟨ids, hrun, ?_⟩
    have hcard := List.toFinset_card_le
      ((Thread.start hosted).process.ribInterface.clientId :: ids)
    rw [List.length_cons] at hcard
    omega
  · show hosted.process.ribInterface.bestrouteUpdates = ([], [])
    rw [hinterface]
  · intro place' other hother hrib
    obtain ⟨hosted', hhosted', rfl⟩ := thread_threadsOf hother
    exact h.own place' place hosted' hosted hhosted' hhosted hrib

/-- However the threads of a network made from a topology interleave, with each other and with
messages from outside, none panics, and each is a speaker from the start. -/
theorem speakers_fromTopology (forms : TextForms) (uuids : ℕ → Uuid) (topology : NetworkTopology)
    (threadManager : ThreadManager) (supply : Supply) (state : NetworkManager × Supply)
    (hunwritten : ∀ rib, Unwritten (supply.ribs rib))
    (h : NetworkManager.fromTopology forms uuids topology threadManager supply = .ok state)
    (events : List (Event (Uuid × ℕ))) :
    ∃ state' history, run forms (threadsOf state) events = .ok (state', history) ∧
      ∀ place hosted, hostedAt state.1 place = some hosted →
        (∃ self, state'.thread place = some self ∧ Speaks state'.shared self
          ((ownEffects place history).foldl (Speaker.after forms) .silent)) ∧
        ∀ before done later, ownEffects place history = before ++ done :: later →
          Tells forms (settingOf (Thread.start hosted))
            (before.foldl (Speaker.after forms) .silent) done := by
  have hhoused := housed_fromTopology hunwritten h
  obtain ⟨state', history, hrun, -⟩ := @Roomy.exists_run forms _ _ _ hhoused.roomy events
  refine ⟨state', history, hrun, ?_⟩
  intro place hosted hhosted
  obtain ⟨⟨⟨self, hself, -, hspeaks⟩, -⟩, htells⟩ := speaks_run (hhoused.speaks hhosted) hrun
  exact ⟨⟨self, hself, hspeaks⟩, htells⟩

/-- The network of two routers and two edges between them can be made. -/
theorem exists_parallel :
    ∃ state, NetworkManager.fromTopology .sample (fun n => BitVec.ofNat 128 n)
      (NetworkTopology.build parallelEdges) .new .initial = .ok state := by
  have hcounts : 2 * (NetworkTopology.build parallelEdges).vertices.length +
      6 * (NetworkTopology.build parallelEdges).edges.length = 16 := by decide
  have hfresh : Fresh (fun n => BitVec.ofNat 128 n) ThreadManager.new.messageBus
      Supply.initial.drawn (2 * (NetworkTopology.build parallelEdges).vertices.length +
        6 * (NetworkTopology.build parallelEdges).edges.length) := by
    rw [hcounts]
    exact fresh_ofNat (by decide)
  obtain ⟨state, -, hfrom, -⟩ := @TopologyWirings.built_fromTopology .sample _ Supply.initial _
    ThreadManager.new (NetworkTopology.wellFormed_build parallelEdges) (by decide) hfresh
  exact ⟨state, hfrom⟩

theorem speakers_fromTopology_parallel :
    ∃ state, NetworkManager.fromTopology .sample (fun n => BitVec.ofNat 128 n)
        (NetworkTopology.build parallelEdges) .new .initial = .ok state ∧
      ∀ events, ∃ state' history, run .sample (threadsOf state) events = .ok (state', history) ∧
        ∀ place hosted, hostedAt state.1 place = some hosted →
          ∃ self, state'.thread place = some self ∧ Speaks state'.shared self
            ((ownEffects place history).foldl (Speaker.after .sample) .silent) := by
  obtain ⟨state, hfrom⟩ := exists_parallel
  refine ⟨state, hfrom, ?_⟩
  intro events
  obtain ⟨state', history, hrun, hspeaks⟩ := speakers_fromTopology .sample _ _ _ .initial _
    (fun _ => unwritten_new) hfrom events
  exact ⟨state', history, hrun, fun place hosted hhosted => (hspeaks place hosted hhosted).1⟩

end Running

end NetfabricBgp.TopologyThreads
