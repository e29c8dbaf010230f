import NetfabricBgp.BufferLosses
import NetfabricBgp.Networks

/-!
A network in which nothing is on its way and nothing is pending. A router's work receives
nothing there, and yet its processes each make an update without announcements and
withdrawals and send it. So the network stays quiet just as long as every such update is
withheld, by the buffer, the filter or the channel of each session.
-/
namespace NetfabricBgp.QuietNetworks

open Addresses RouterMasks Ribs RibInterfaces Advertisements BoundedQueues Channels Interfaces
  Sessions Processes Supplies Routers Networks

/-- Both buffers of the session's interface are empty. -/
def QuietSession (session : BgpSession) : Prop :=
  ∀ interface, session.interface = some interface →
    interface.incomingAdvertisements.items = [] ∧ interface.outgoingAdvertisements.items = []

/-- Nothing is pending in a process or in the buffers of its sessions. -/
structure QuietProcess (process : BgpProcess) : Prop where
  sessions : ∀ session ∈ process.sessions, QuietSession session
  advertisement : process.advertisement = []
  bestrouteUpdates : process.bestrouteUpdates = ([], [])
  reported : process.ribInterface.bestrouteUpdates = ([], [])

def Silence (links : Links) : Prop := ∀ channel, (links channel).queue.items = []

/-- The session puts an advertisement on its channel: the buffer and the channel have room,
and the filter accepts it. -/
def Carries (links : Links) (ad : Advertisement) (session : BgpSession) : Prop :=
  ∃ interface channel, session.interface = some interface ∧
    interface.outChannel = some channel ∧ 0 < interface.outgoingAdvertisements.capacity ∧
    (interface.outFilter ad).1 = true ∧ 0 < (links channel).room

/-- The update of a process that has no changes to tell. -/
def emptyUpdate (forms : TextForms) (process : BgpProcess) (timestamp : UInt64) :
    Advertisement where
  timestamp := timestamp
  peer := forms.addrToString process.config.ip
  peerAsn := toString process.config.asNumber.toNat
  id := forms.uuidToString process.id
  host := forms.addrToString process.config.ip
  msgType := .Update
  path := none
  community := none
  origin := none
  announcements := some []
  raw := some ""
  withdrawals := some []

section Sessions
variable {session : BgpSession} {interface : Interface} {links : Links} {ad : Advertisement}

theorem carries_iff (h : session.interface = some interface) :
    Carries links ad session ↔ ∃ channel, interface.outChannel = some channel ∧
      0 < interface.outgoingAdvertisements.capacity ∧ (interface.outFilter ad).1 = true ∧
      0 < (links channel).room := by
  constructor
  · intro hcarries
    obtain ⟨interface', channel, hinterface, hrest⟩ := hcarries
    obtain rfl := Option.some.inj (h.symm.trans hinterface)
    exact ⟨channel, hrest⟩
  · intro hcarries
    obtain ⟨channel, hrest⟩ := hcarries
    exact ⟨interface, channel, h, hrest⟩

theorem quietSession_iff (h : session.interface = some interface) :
    QuietSession session ↔ interface.incomingAdvertisements.items = [] ∧
      interface.outgoingAdvertisements.items = [] := by
  constructor
  · intro hquiet
    exact hquiet interface h
  · intro hquiet interface' hinterface
    obtain rfl := Option.some.inj (h.symm.trans hinterface)
    exact hquiet

/-- A quiet session receives nothing and stays as ready to send as it was. -/
theorem receive_quiet (hlinks : Silence links) (hquiet : QuietSession session)
    (lock : LockAttempt) :
    ∃ session' result, session.receive lock links = (links, session', result) ∧
      (∀ ads, result = .ok ads → ads = []) ∧ QuietSession session' ∧
      ∀ ad, Carries links ad session' ↔ Carries links ad session := by
  unfold BgpSession.receive
  cases hinterface : session.interface with
  | none =>
    refine ⟨session, .error .InterfaceNotSet, rfl, ?_, hquiet, fun ad => Iff.rfl⟩
    intro ads hads
    cases hads
  | some interface =>
    obtain ⟨hincoming, houtgoing⟩ := (quietSession_iff hinterface).mp hquiet
    obtain ⟨result, hreceive⟩ := @Interface.receive_of_empty interface links lock
      (fun id _ => hlinks id)
    simp only [hreceive]
    cases result with
    | error e =>
      refine ⟨_, _, rfl, ?_, (quietSession_iff rfl).mpr ⟨hincoming, houtgoing⟩, ?_⟩
      · intro ads hads
        cases hads
      · intro ad
        rw [carries_iff hinterface]
        exact carries_iff rfl
    | ok _ =>
      refine ⟨_, _, rfl, ?_, ?_, ?_⟩
      · intro ads hads
        exact (Except.ok.inj hads).symm.trans hincoming
      · rw [quietSession_iff rfl]
        exact ⟨rfl, houtgoing⟩
      · intro ad
        rw [carries_iff hinterface, carries_iff rfl]
        exact Iff.rfl

/-- An advertisement that cannot be pushed leaves nothing to send. -/
theorem push_quiet (houtgoing : interface.outgoingAdvertisements.items = [])
    (hnone : interface.outChannel = none ∨ interface.outgoingAdvertisements.capacity = 0) :
    (interface.pushOutgoingAdvertisements [ad]).1.outgoingAdvertisements.items = [] ∧
      (interface.pushOutgoingAdvertisements [ad]).1.incomingAdvertisements =
        interface.incomingAdvertisements := by
  by_cases hout : interface.outChannel.isNone = true
  · rw [Interface.pushOutgoingAdvertisements_of_none hout]
    exact ⟨houtgoing, rfl⟩
  · rw [Interface.pushOutgoingAdvertisements_of_some hout]
    have hcapacity : interface.outgoingAdvertisements.capacity = 0 := by
      rcases hnone with hnone | hcapacity
      · rw [hnone] at hout
        exact absurd rfl hout
      · exact hcapacity
    have hroom : interface.outgoingAdvertisements.room = 0 := by
      unfold Bounded.room
      omega
    simp [Bounded.extend, houtgoing, hroom]

/-- A withheld advertisement leaves the channels as they are. -/
theorem interface_send_withheld {channel : ChannelId}
    (hout : interface.outChannel = some channel)
    (houtgoing : interface.outgoingAdvertisements.items = [ad])
    (h : (interface.outFilter ad).1 = true → (links channel).room = 0) :
    interface.send links =
      (links, { interface with
        outgoingAdvertisements := .empty interface.bufferSizeOutgoing }) := by
  have hloop : sendLoop interface.outFilter (links channel) [ad] = links channel := by
    by_cases hkeep : (interface.outFilter ad).1 = true
    · exact sendLoop_overflow ad [] hkeep (h hkeep)
    · simp [sendLoop, hkeep]
  simp [Interface.send, houtgoing, hout, hloop]

/-- One advertisement fits into an empty buffer, if the buffer has a capacity. -/
theorem fits_one (houtgoing : interface.outgoingAdvertisements.items = [])
    (hcapacity : interface.outgoingAdvertisements.capacity ≠ 0) :
    [ad].length ≤ interface.outgoingAdvertisements.room := by
  unfold Bounded.room
  rw [houtgoing, List.length_singleton, List.length_nil]
  omega

/-- Without an out channel or a capacity the buffer stays empty. -/
theorem send_unpushed (hinterface : session.interface = some interface)
    (hquiet : QuietSession session)
    (hnone : interface.outChannel = none ∨ interface.outgoingAdvertisements.capacity = 0) :
    ∃ session' result, session.send [ad] links = (links, session', result) ∧
      QuietSession session' := by
  obtain ⟨hincoming, houtgoing⟩ := (quietSession_iff hinterface).mp hquiet
  obtain ⟨result, hsend⟩ := BgpSession.send_of_interface hinterface [ad] links
  obtain ⟨hempty, hkept⟩ := @push_quiet _ ad houtgoing hnone
  have hnothing : (interface.pushOutgoingAdvertisements [ad]).1.send links =
      (links, (interface.pushOutgoingAdvertisements [ad]).1) := by
    unfold Interface.send
    rw [if_pos hempty]
  rw [hnothing] at hsend
  refine ⟨_, result, hsend, ?_⟩
  rw [quietSession_iff rfl, hkept]
  exact ⟨hincoming, hempty⟩

/-- A pushed advertisement that is not carried goes no further than the buffer. -/
theorem send_pushed {channel : ChannelId} (hinterface : session.interface = some interface)
    (hquiet : QuietSession session) (hchannel : interface.outChannel = some channel)
    (hcapacity : interface.outgoingAdvertisements.capacity ≠ 0)
    (hcarries : ¬ Carries links ad session) :
    ∃ session' result, session.send [ad] links = (links, session', result) ∧
      QuietSession session' := by
  obtain ⟨hincoming, houtgoing⟩ := (quietSession_iff hinterface).mp hquiet
  obtain ⟨result, hsend⟩ := BgpSession.send_of_interface hinterface [ad] links
  have hfit := @fits_one _ ad houtgoing hcapacity
  have hroom : (interface.outFilter ad).1 = true → (links channel).room = 0 := by
    intro hkeep
    by_contra hroom
    exact hcarries ((carries_iff hinterface).mpr ⟨channel, hchannel, by omega, hkeep, by omega⟩)
  have hitems : (interface.outgoingAdvertisements.extend [ad] hfit).items = [ad] := by
    show interface.outgoingAdvertisements.items ++ [ad] = [ad]
    rw [houtgoing, List.nil_append]
  rw [BufferLosses.pushOutgoingAdvertisements_fits hchannel hfit, @interface_send_withheld
    { interface with outgoingAdvertisements := interface.outgoingAdvertisements.extend [ad] hfit }
    links ad channel hchannel hitems hroom] at hsend
  refine ⟨_, result, hsend, ?_⟩
  rw [quietSession_iff rfl]
  exact ⟨hincoming, rfl⟩

/-- A quiet session that does not carry an advertisement stays quiet when it sends it. -/
theorem send_quiet (hquiet : QuietSession session) (hcarries : ¬ Carries links ad session) :
    ∃ session' result, session.send [ad] links = (links, session', result) ∧
      QuietSession session' := by
  cases hinterface : session.interface with
  | none =>
    refine ⟨session, .error .InterfaceNotSet, ?_, hquiet⟩
    unfold BgpSession.send
    rw [hinterface]
  | some interface =>
    by_cases hnone : interface.outChannel = none ∨ interface.outgoingAdvertisements.capacity = 0
    · exact send_unpushed hinterface hquiet hnone
    · obtain ⟨hout, hcapacity⟩ := not_or.mp hnone
      obtain ⟨channel, hchannel⟩ := Option.ne_none_iff_exists'.mp hout
      exact send_pushed hinterface hquiet hchannel hcapacity hcarries

/-- A carried advertisement is on a channel afterwards. -/
theorem send_carried (hquiet : QuietSession session) (hcarries : Carries links ad session) :
    ¬ Silence (session.send [ad] links).1 := by
  obtain ⟨interface, channel, hinterface, hout, hcapacity, hkeep, hroom⟩ := hcarries
  obtain ⟨hincoming, houtgoing⟩ := (quietSession_iff hinterface).mp hquiet
  obtain ⟨-, -, hqueue⟩ := BufferLosses.session_send_fits links hinterface hout
    (@fits_one _ ad houtgoing (by omega))
  intro hsilence
  rw [hsilence channel, houtgoing, List.nil_append, accepted_cons, if_pos hkeep] at hqueue
  have hlen := congrArg List.length hqueue
  rw [List.length_nil, List.length_append, List.length_map, List.length_take, List.length_cons]
    at hlen
  omega

/-- What is on a channel stays there while a session sends. -/
theorem silence_of_send (ads : List Advertisement) (h : Silence (session.send ads links).1) :
    Silence links := by
  intro channel
  have hafter := h channel
  by_cases hout : session.outChannel = some channel
  · obtain ⟨interface, hinterface, hchannel⟩ := Option.bind_eq_some_iff.mp hout
    obtain ⟨result, hsend⟩ := BgpSession.send_of_interface hinterface ads links
    have hpushed : (interface.pushOutgoingAdvertisements ads).1.outChannel = some channel := by
      rw [Interface.pushOutgoingAdvertisements_outChannel]
      exact hchannel
    obtain ⟨-, hqueue⟩ := BufferLosses.interface_send links hpushed
    rw [hsend, hqueue] at hafter
    exact (List.append_eq_nil_iff.mp hafter).1
  · rwa [BgpSession.send_of_ne ads hout] at hafter

end Sessions

section Cycles
variable {forms : TextForms} {links : Links} {ad : Advertisement} {sessions : List BgpSession}

theorem receiveSessions_quiet (hlinks : Silence links)
    (hquiet : ∀ session ∈ sessions, QuietSession session) (locks : ℕ → LockAttempt) (n : ℕ) :
    ∃ sessions', receiveSessions locks links n sessions = (links, sessions', []) ∧
      (∀ session ∈ sessions', QuietSession session) ∧
      ∀ ad, (∀ session ∈ sessions', ¬ Carries links ad session) ↔
        ∀ session ∈ sessions, ¬ Carries links ad session := by
  induction sessions generalizing n with
  | nil => exact ⟨[], rfl, hquiet, fun ad => Iff.rfl⟩
  | cons session rest ih =>
    rw [List.forall_mem_cons] at hquiet
    obtain ⟨session', result, hreceive, hnothing, hquiet', hcarries⟩ :=
      receive_quiet hlinks hquiet.1 (locks n)
    obtain ⟨rest', hrest, hquietRest, hcarriesRest⟩ := ih hquiet.2 (n + 1)
    refine ⟨session' :: rest', ?_, ?_, ?_⟩
    · unfold receiveSessions
      simp only [hreceive, hrest]
      cases result with
      | error e => rfl
      | ok ads =>
        rw [hnothing ads rfl]
        rfl
    · rw [List.forall_mem_cons]
      exact ⟨hquiet', hquietRest⟩
    · intro ad
      rw [List.forall_mem_cons, List.forall_mem_cons, hcarries ad, hcarriesRest ad]

theorem sendSessions_withheld (hquiet : ∀ session ∈ sessions, QuietSession session)
    (hwithheld : ∀ session ∈ sessions, ¬ Carries links ad session) :
    ∃ sessions', sendSessions [ad] links sessions = (links, sessions') ∧
      ∀ session ∈ sessions', QuietSession session := by
  induction sessions with
  | nil => exact ⟨[], rfl, hquiet⟩
  | cons session rest ih =>
    rw [List.forall_mem_cons] at hquiet hwithheld
    obtain ⟨session', result, hsend, hquiet'⟩ := send_quiet hquiet.1 hwithheld.1
    obtain ⟨rest', hrest, hquietRest⟩ := ih hquiet.2 hwithheld.2
    refine ⟨session' :: rest', ?_, ?_⟩
    · unfold sendSessions
      simp only [hsend, hrest]
    · rw [List.forall_mem_cons]
      exact ⟨hquiet', hquietRest⟩

theorem silence_of_sendSessions (ads : List Advertisement)
    (h : Silence (sendSessions ads links sessions).1) : Silence links := by
  induction sessions generalizing links with
  | nil => exact h
  | cons session rest ih => exact silence_of_send ads (ih h)

theorem sendSessions_carried (hquiet : ∀ session ∈ sessions, QuietSession session)
    (hcarried : ¬ ∀ session ∈ sessions, ¬ Carries links ad session) :
    ¬ Silence (sendSessions [ad] links sessions).1 := by
  induction sessions with
  | nil => exact absurd (fun session hmem => absurd hmem List.not_mem_nil) hcarried
  | cons session rest ih =>
    rw [List.forall_mem_cons] at hquiet hcarried
    intro hsilence
    by_cases hhead : Carries links ad session
    · exact send_carried hquiet.1 hhead (silence_of_sendSessions [ad] hsilence)
    · obtain ⟨session', result, hsend, -⟩ := send_quiet hquiet.1 hhead
      unfold sendSessions at hsilence
      simp only [hsend] at hsilence
      exact ih hquiet.2 (fun hrest => hcarried ⟨hhead, hrest⟩) hsilence

/-- No session of the process carries its empty update. -/
def Withheld (forms : TextForms) (links : Links) (timestamp : UInt64) (process : BgpProcess) :
    Prop :=
  ∀ session ∈ process.sessions, ¬ Carries links (emptyUpdate forms process timestamp) session

/-- A quiet process goes through a cycle without changing the RIB. The channels stay empty
just when its empty update is withheld, and then the process stays quiet. -/
theorem cycle_quiet {hosted : HostedProcess} (hlinks : Silence links)
    (hquiet : QuietProcess hosted.process) (moment : Moment) (ribs : RibId → BgpRib) :
    ∃ links' hosted', hosted.cycle forms moment links ribs = .ok (links', ribs, hosted') ∧
      (Silence links' ↔ Withheld forms links moment.timestamp hosted.process) ∧
      (Withheld forms links moment.timestamp hosted.process →
        links' = links ∧ QuietProcess hosted'.process) := by
  obtain ⟨sessions, hreceive, hquietSessions, hcarries⟩ :=
    receiveSessions_quiet hlinks hquiet.sessions moment.locks 0
  let ad := emptyUpdate forms hosted.process moment.timestamp
  have hcycle : hosted.cycle forms moment links ribs =
      .ok ((sendSessions [ad] links sessions).1, ribs, { hosted with process :=
        { hosted.process with
          sessions := (sendSessions [ad] links sessions).2
          bestrouteUpdates := ([], [])
          advertisement := []
          ribInterface :=
            { hosted.process.ribInterface with bestrouteUpdates := ([], []) } } }) := by
    simp [HostedProcess.cycle, BgpProcess.receive, hreceive, BgpRibInterface.update,
      BgpProcess.getBestRouteChanges, BgpRibInterface.getBestrouteUpdates, hquiet.reported,
      BgpProcess.generateAdvertisement, BgpProcess.nextAdvertisement, hquiet.advertisement,
      BgpProcess.send, ad, emptyUpdate]
  refine ⟨_, _, hcycle, ?_, ?_⟩
  · constructor
    · intro hsilence
      rw [Withheld, ← hcarries]
      by_contra hcarried
      exact sendSessions_carried hquietSessions hcarried hsilence
    · intro hwithheld
      obtain ⟨sessions', hsend, -⟩ :=
        sendSessions_withheld hquietSessions ((hcarries ad).mpr hwithheld)
      rw [hsend]
      exact hlinks
  · intro hwithheld
    obtain ⟨sessions', hsend, hquiet'⟩ :=
      sendSessions_withheld hquietSessions ((hcarries ad).mpr hwithheld)
    rw [hsend]
    exact ⟨rfl, hquiet', rfl, rfl, rfl⟩

end Cycles

/-- No cycle of these processes puts a message on a channel. A cycle sends last, so what it
sent is still there when it ends. -/
def Silent (forms : TextForms) (moments : ℕ → Moment) (links : Links) (ribs : RibId → BgpRib) :
    ℕ → List HostedProcess → Prop
  | _, [] => True
  | n, process :: rest =>
    match process.cycle forms (moments n) links ribs with
    | .error _ => False
    | .ok (links, ribs, _) => Silence links ∧ Silent forms moments links ribs (n + 1) rest

section Work
variable {forms : TextForms} {moments : ℕ → Moment} {links : Links} {ribs : RibId → BgpRib}
  {processes : List HostedProcess}

theorem silent_iff (hlinks : Silence links)
    (hquiet : ∀ hosted ∈ processes, QuietProcess hosted.process) (n : ℕ) :
    Silent forms moments links ribs n processes ↔ ∀ entry ∈ processes.zipIdx n,
      Withheld forms links (moments entry.2).timestamp entry.1.process := by
  induction processes generalizing n with
  | nil => simp [Silent]
  | cons hosted rest ih =>
    rw [List.forall_mem_cons] at hquiet
    obtain ⟨links', hosted', hcycle, hsilence, hkept⟩ :=
      @cycle_quiet forms links hosted hlinks hquiet.1 (moments n) ribs
    rw [Silent, hcycle, List.zipIdx_cons, List.forall_mem_cons]
    show Silence links' ∧ Silent forms moments links' ribs (n + 1) rest ↔ _
    rw [hsilence]
    constructor
    · intro hsilent
      obtain ⟨hwithheld, hrest⟩ := hsilent
      obtain ⟨rfl, -⟩ := hkept hwithheld
      exact ⟨hwithheld, (ih hquiet.2 (n + 1)).mp hrest⟩
    · intro hwithheld
      obtain ⟨rfl, -⟩ := hkept hwithheld.1
      exact ⟨hwithheld.1, (ih hquiet.2 (n + 1)).mpr hwithheld.2⟩

/-- Work whose updates are withheld changes no channel and no RIB, and all stays quiet. -/
theorem workProcesses_withheld (hlinks : Silence links)
    (hquiet : ∀ hosted ∈ processes, QuietProcess hosted.process) (n : ℕ)
    (hwithheld : ∀ entry ∈ processes.zipIdx n,
      Withheld forms links (moments entry.2).timestamp entry.1.process) :
    ∃ processes', workProcesses forms moments links ribs n processes =
        .ok (links, ribs, processes') ∧
      ∀ hosted ∈ processes', QuietProcess hosted.process := by
  induction processes generalizing n with
  | nil => exact ⟨[], rfl, hquiet⟩
  | cons hosted rest ih =>
    rw [List.forall_mem_cons] at hquiet
    rw [List.zipIdx_cons, List.forall_mem_cons] at hwithheld
    obtain ⟨links', hosted', hcycle, -, hkept⟩ :=
      @cycle_quiet forms links hosted hlinks hquiet.1 (moments n) ribs
    obtain ⟨rfl, hquiet'⟩ := hkept hwithheld.1
    obtain ⟨rest', hrest, hquietRest⟩ := ih hquiet.2 (n + 1) hwithheld.2
    refine ⟨hosted' :: rest', ?_, ?_⟩
    · unfold workProcesses
      simp only [hcycle, hrest]
    · rw [List.forall_mem_cons]
      exact ⟨hquiet', hquietRest⟩

end Work

/-- One call of `Router::work`: whose turn it is, and what each of its cycles meets. -/
structure Turn where
  router : Uuid
  moments : ℕ → Moment

/-- The network after a turn; only its own routers have turns. -/
def workAt (forms : TextForms) (state : NetworkManager × Supply) (turn : Turn) :
    Except Panic (NetworkManager × Supply) :=
  match state.1.routers.lookup turn.router with
  | none => .ok state
  | some router =>
    match router.work forms turn.moments state.2.links state.2.ribs with
    | .error panic => .error panic
    | .ok (links, ribs, router, _) =>
      .ok ({ state.1 with routers := state.1.routers.insert turn.router router },
        { state.2 with links := links, ribs := ribs })

/-- All channels, all buffers and all pending lists are empty. -/
structure Quiescent (state : NetworkManager × Supply) : Prop where
  silence : Silence state.2.links
  processes : ∀ id router, state.1.routers.lookup id = some router →
    ∀ hosted ∈ router.bgpProcesses, QuietProcess hosted.process

/-- The turn puts no message on a channel. -/
def SilentTurn (forms : TextForms) (state : NetworkManager × Supply) (turn : Turn) : Prop :=
  ∀ router, state.1.routers.lookup turn.router = some router →
    Silent forms turn.moments state.2.links state.2.ribs 0 router.bgpProcesses

/-- No session of the router carries the empty update of its process. -/
def WithheldTurn (forms : TextForms) (state : NetworkManager × Supply) (turn : Turn) : Prop :=
  ∀ router, state.1.routers.lookup turn.router = some router →
    ∀ entry ∈ router.bgpProcesses.zipIdx,
      Withheld forms state.2.links (turn.moments entry.2).timestamp entry.1.process

/-- The network is quiescent after every turn, and no turn puts a message on a channel. -/
def StaysQuiet (forms : TextForms) (state : NetworkManager × Supply) (turns : List Turn) : Prop :=
  ∀ done rest, turns = done ++ rest → ∃ reached, Runs.run (workAt forms) state done = .ok reached ∧
    Quiescent reached ∧ ∀ turn later, rest = turn :: later → SilentTurn forms reached turn

section Turns
variable {forms : TextForms} {state : NetworkManager × Supply} {turn : Turn}

theorem silentTurn_iff (h : Quiescent state) :
    SilentTurn forms state turn ↔ WithheldTurn forms state turn := by
  constructor
  · intro hsilent router hlookup
    exact (silent_iff h.silence (h.processes _ router hlookup) 0).mp (hsilent router hlookup)
  · intro hwithheld router hlookup
    exact (silent_iff h.silence (h.processes _ router hlookup) 0).mpr (hwithheld router hlookup)

theorem workAt_withheld (h : Quiescent state) (hwithheld : WithheldTurn forms state turn) :
    ∃ state', workAt forms state turn = .ok state' ∧ Quiescent state' := by
  unfold workAt
  cases hlookup : state.1.routers.lookup turn.router with
  | none => exact ⟨state, rfl, h⟩
  | some router =>
    obtain ⟨processes, hwork, hquiet⟩ := @workProcesses_withheld forms turn.moments _
      state.2.ribs _ h.silence (h.processes _ router hlookup) 0 (hwithheld router hlookup)
    simp only [Router.work, hwork]
    refine ⟨_, rfl, h.silence, ?_⟩
    intro id other hother
    by_cases hid : id = turn.router
    · subst hid
      rw [Finmap.lookup_insert, Option.some.injEq] at hother
      subst hother
      exact hquiet
    · rw [Finmap.lookup_insert_of_ne _ hid] at hother
      exact h.processes id other hother

/-- While the empty updates are withheld, the network stays quiescent. -/
theorem quiescent_run {turns : List Turn} (h : Quiescent state)
    (hwithheld : ∀ done turn rest reached, turns = done ++ turn :: rest →
      Runs.run (workAt forms) state done = .ok reached → WithheldTurn forms reached turn)
    (done rest : List Turn) (hturns : turns = done ++ rest) :
    ∃ reached, Runs.run (workAt forms) state done = .ok reached ∧ Quiescent reached := by
  induction done using List.reverseRecOn generalizing rest with
  | nil => exact ⟨state, rfl, h⟩
  | append_singleton done turn ih =>
    rw [List.append_assoc, List.singleton_append] at hturns
    obtain ⟨reached, hrun, hquiet⟩ := ih (turn :: rest) hturns
    obtain ⟨next, hwork, hquiet'⟩ :=
      workAt_withheld hquiet (hwithheld done turn rest reached hturns hrun)
    refine ⟨next, ?_, hquiet'⟩
    rw [Runs.run_append_ok]
    refine ⟨reached, hrun, ?_⟩
    rw [Runs.run_cons_ok]
    exact ⟨next, hwork, rfl⟩

/-- From a quiescent state, a network stays quiet over any turns exactly when in every turn
all sessions withhold the empty updates of the router's processes. -/
theorem staysQuiet_iff (forms : TextForms) (state : NetworkManager × Supply) (turns : List Turn)
    (h : Quiescent state) :
    StaysQuiet forms state turns ↔ ∀ done turn rest reached, turns = done ++ turn :: rest →
      Runs.run (workAt forms) state done = .ok reached → WithheldTurn forms reached turn := by
  constructor
  · intro hstays done turn rest reached hturns hrun
    obtain ⟨reached', hrun', hquiet, hsilent⟩ := hstays done (turn :: rest) hturns
    obtain rfl := Except.ok.inj (hrun'.symm.trans hrun)
    exact (silentTurn_iff hquiet).mp (hsilent turn rest rfl)
  · intro hwithheld done rest hturns
    obtain ⟨reached, hrun, hquiet⟩ := quiescent_run h hwithheld done rest hturns
    refine ⟨reached, hrun, hquiet, ?_⟩
    intro turn later hrest
    rw [hrest] at hturns
    exact (silentTurn_iff hquiet).mpr (hwithheld done turn later reached hturns hrun)

end Turns

/-- A session that sends to itself. -/
def loopbackSession : BgpSession :=
  (BgpSession.new 1).withInterface
    ((((Interface.new 2 (.V4 1)).setInChannel 0).setOutChannel 0).setBufferSize 10 10)

def loopbackProcess : HostedProcess :=
  ⟨{ BgpProcess.new 3 ⟨4, [], []⟩ with sessions := [loopbackSession] }, 0⟩

/-- One router with that session, a channel of ten, and nothing to do. -/
def idleNetwork : NetworkManager × Supply :=
  (⟨0, Finmap.insert 4 ⟨4, default, [loopbackProcess]⟩ ∅, MessageBuses.ThreadManager.new⟩,
    { Supply.initial with links := fun _ => Channel.create 10 })

def firstTurn : Turn := ⟨4, fun _ => ⟨fun _ => .acquired, fun _ => .acquired, 0⟩⟩

theorem quiescent_idleNetwork : Quiescent idleNetwork := by
  refine ⟨fun _ => rfl, ?_⟩
  intro id router hlookup hosted hmem
  have hid : id = 4 := by
    by_contra hne
    have hnone : idleNetwork.1.routers.lookup id = none :=
      (Finmap.lookup_insert_of_ne _ hne).trans (Finmap.lookup_empty id)
    rw [hnone] at hlookup
    cases hlookup
  subst hid
  have hrouter : idleNetwork.1.routers.lookup 4 = some ⟨4, default, [loopbackProcess]⟩ :=
    Finmap.lookup_insert _
  obtain rfl := Option.some.inj (hlookup.symm.trans hrouter)
  obtain rfl := List.mem_singleton.mp hmem
  refine ⟨?_, rfl, rfl, rfl⟩
  intro session hsession
  obtain rfl := List.mem_singleton.mp hsession
  rw [quietSession_iff rfl]
  exact ⟨rfl, rfl⟩

theorem staysQuiet_iff_idle :
    StaysQuiet TextForms.sample idleNetwork [firstTurn] ↔
      ∀ done turn rest reached, [firstTurn] = done ++ turn :: rest →
        Runs.run (workAt TextForms.sample) idleNetwork done = .ok reached →
          WithheldTurn TextForms.sample reached turn :=
  staysQuiet_iff TextForms.sample idleNetwork [firstTurn] quiescent_idleNetwork

/-- The first turn of the router with nothing to do puts an empty update on the channel. -/
theorem not_staysQuiet_idle :
    Quiescent idleNetwork ∧ ¬ StaysQuiet TextForms.sample idleNetwork [firstTurn] := by
  refine ⟨quiescent_idleNetwork, ?_⟩
  intro hstays
  obtain ⟨reached, hrun, hquiet, hsilent⟩ := hstays [] [firstTurn] rfl
  obtain rfl : idleNetwork = reached := Except.ok.inj hrun
  have hwithheld := (silentTurn_iff hquiet).mp (hsilent firstTurn [] rfl)
  apply hwithheld _ (Finmap.lookup_insert _) (loopbackProcess, 0) (List.mem_singleton.mpr rfl)
    loopbackSession (List.mem_singleton.mpr rfl)
  exact ⟨_, 0, rfl, rfl, by decide, rfl, by decide⟩

end NetfabricBgp.QuietNetworks
