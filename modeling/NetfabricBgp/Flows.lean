import NetfabricBgp.Speakers

/-!
What can be said of everything that is under way in a network. A flow names the advertisements
that may be on each channel and be read and written by each thread, and the changes of best
routes that each thread may collect. If it is closed under what threads do, and whatever enters
from outside belongs to it, then it is never left, in any interleaving and with any losses.
-/
namespace NetfabricBgp.Flows

open Addresses Routes RouterMasks Ribs RibInterfaces Advertisements KeyedLog BoundedQueues Channels
  Interfaces Sessions Processes Supplies LinkThreads ProcessThreads ThreadSteps ThreadHistories
  Speakers

/-- What may be on the channels and in the threads of a network. -/
structure Flow (ι : Type*) where
  carried : ChannelId → Advertisement → Prop
  inbound : ι → Advertisement → Prop
  outbound : ι → Advertisement → Prop
  announced : ι → BestRoute → Prop
  withdrawn : ι → BestRoute → Prop

/-- The threads' settings in a state. -/
def settings {ι : Type*} (state : Threads ι) (i : ι) : Option Setting :=
  (state.thread i).map settingOf

theorem setting_of_thread {ι : Type*} {state : Threads ι} {i : ι} {self : Thread}
    (h : state.thread i = some self) : settings state i = some (settingOf self) := by
  unfold settings
  rw [h]
  rfl

/-- Whatever threads with these settings make of a part of the flow is in the flow. -/
structure Closed {ι : Type*} (forms : TextForms) (flow : Flow ι) (settings : ι → Option Setting) :
    Prop where
  receives : ∀ i setting port c ad, settings i = some setting → some port ∈ setting.ports →
    port.inChannel = some c → flow.carried c ad → (port.inFilter ad).1 = true →
      flow.inbound i (port.inFilter ad).2
  announces : ∀ i ad route, flow.inbound i ad → route ∈ ad.getAnnouncements forms →
    flow.announced i (.ofRoute route)
  withdraws : ∀ i ad route, flow.inbound i ad → route ∈ ad.getWithdrawals forms →
    flow.withdrawn i (.ofRoute route)
  tells : ∀ i setting timestamp pending, settings i = some setting →
    (∀ best ∈ pending.1, flow.announced i best) → (∀ best ∈ pending.2, flow.withdrawn i best) →
      flow.outbound i (advertisementOf forms setting timestamp pending)
  sends : ∀ i setting port c ad, settings i = some setting → some port ∈ setting.ports →
    port.outChannel = some c → flow.outbound i ad → (port.outFilter ad).1 = true →
      flow.carried c (port.outFilter ad).2

section Threads
variable {ι : Type*} {forms : TextForms} {flow : Flow ι} {i : ι}

def StageWithin (flow : Flow ι) (i : ι) : Stage → Prop
  | .update rest => ∀ ad ∈ rest, flow.inbound i ad
  | .sending _ rest => ∀ ad ∈ rest, flow.outbound i ad
  | _ => True

def InterfaceWithin (flow : Flow ι) (i : ι) (interface : Interface) : Prop :=
  (∀ ad ∈ interface.incomingAdvertisements.items, flow.inbound i ad) ∧
    ∀ ad ∈ interface.outgoingAdvertisements.items, flow.outbound i ad

/-- All that is under way in a thread is in the flow. -/
structure Within (flow : Flow ι) (i : ι) (thread : Thread) : Prop where
  interfaces : ∀ n interface, thread.interfaceAt n = some interface →
    InterfaceWithin flow i interface
  received : ∀ ad ∈ thread.received, flow.inbound i ad
  stage : StageWithin flow i thread.stage
  advertisement : ∀ ad ∈ thread.process.advertisement, flow.outbound i ad
  announced : ∀ best ∈ thread.process.ribInterface.bestrouteUpdates.1, flow.announced i best
  withdrawn : ∀ best ∈ thread.process.ribInterface.bestrouteUpdates.2, flow.withdrawn i best

def ChannelsWithin (flow : Flow ι) (links : Links) : Prop :=
  ∀ c ad, .advertisement ad ∈ (links c).queue.items → flow.carried c ad

/-- What an effect shows of a flow is in the flow. -/
def Shows (flow : Flow ι) : Option ι × Effect → Prop
  | (_, .put c (.advertisement ad)) => flow.carried c ad
  | (_, .take c (.advertisement ad)) => flow.carried c ad
  | (some i, .apply _ _ ad) => flow.inbound i ad
  | (some i, .publish ad) => flow.outbound i ad
  | _ => True

/-- The flow has what a thread's effect makes of what was in it. -/
def Covers (forms : TextForms) (flow : Flow ι) (i : ι) (self : Thread) : Effect → Prop
  | .take c (.advertisement ad) => ∀ n interface, self.stage = .receiving n →
      self.interfaceAt n = some interface → interface.inChannel = some c → flow.carried c ad →
        (interface.inFilter ad).1 = true → flow.inbound i (interface.inFilter ad).2
  | .apply _ _ ad => flow.inbound i ad →
      (∀ route ∈ ad.getAnnouncements forms, flow.announced i (.ofRoute route)) ∧
        ∀ route ∈ ad.getWithdrawals forms, flow.withdrawn i (.ofRoute route)
  | .publish ad =>
      (∀ best ∈ self.process.ribInterface.bestrouteUpdates.1, flow.announced i best) →
        (∀ best ∈ self.process.ribInterface.bestrouteUpdates.2, flow.withdrawn i best) →
          (∃ timestamp, ad = advertisementOf forms (settingOf self) timestamp
            self.process.ribInterface.bestrouteUpdates) → flow.outbound i ad
  | .put c (.advertisement ad) => ∀ n interface own rest, self.stage = .sending n (own :: rest) →
      self.interfaceAt n = some interface → interface.outChannel = some c → flow.outbound i own →
        interface.outFilter own = (true, ad) → flow.carried c ad
  | _ => True

variable {instant : Instant} {shared shared' : Shared} {self self' : Thread} {n : ℕ}
  {interface interface' : Interface} {settings : ι → Option Setting}

theorem forall_interfaceAt_setInterface {P : Interface → Prop} (hinterface : P interface')
    (h : ∀ m interface, self.interfaceAt m = some interface → P interface) (m : ℕ)
    (interface : Interface)
    (hat : (self.setInterface n interface').interfaceAt m = some interface) : P interface := by
  rw [interfaceAt_setInterface] at hat
  by_cases hm : m = n ∧ n < self.process.sessions.length
  · rw [if_pos hm] at hat
    exact Option.some.inj hat ▸ hinterface
  · rw [if_neg hm] at hat
    exact h m interface hat

theorem Within.atStage (h : Within flow i self) {stage : Stage}
    (hstage : StageWithin flow i stage) : Within flow i (self.atStage stage) :=
  ⟨h.interfaces, h.received, hstage, h.advertisement, h.announced, h.withdrawn⟩

theorem Within.setInterface (h : Within flow i self)
    (hinterface : InterfaceWithin flow i interface') :
    Within flow i (self.setInterface n interface') :=
  ⟨forall_interfaceAt_setInterface hinterface h.interfaces, h.received, h.stage, h.advertisement,
    h.announced, h.withdrawn⟩

theorem Within.collect (h : Within flow i self) (hinterface : InterfaceWithin flow i interface) :
    Within flow i (self.collect n interface) := by
  have hempty : InterfaceWithin flow i interface.getIncomingAdvertisements.1 :=
    ⟨fun ad had => absurd had List.not_mem_nil, hinterface.2⟩
  refine ⟨forall_interfaceAt_setInterface hempty h.interfaces, ?_, trivial, h.advertisement,
    h.announced, h.withdrawn⟩
  intro ad had
  rcases List.mem_append.mp had with had | had
  · exact h.received ad had
  · exact hinterface.1 ad had

theorem interfaceWithin_pushed (h : Within flow i self)
    (hinterface : InterfaceWithin flow i interface) :
    InterfaceWithin flow i (pushed self interface) := by
  unfold pushed
  by_cases hnone : interface.outChannel.isNone = true
  · rw [Interface.pushOutgoingAdvertisements_of_none hnone]
    exact hinterface
  · rw [Interface.pushOutgoingAdvertisements_of_some hnone]
    refine ⟨hinterface.1, ?_⟩
    intro ad had
    rcases List.mem_append.mp had with had | had
    · exact hinterface.2 ad had
    · exact h.advertisement ad (List.mem_of_mem_take had)

/-- The changes that calls on a RIB report are about the routes of the calls. -/
theorem mem_changes_of_collect {id : Uuid} {rib rib' : BgpRib} {log : List (Entry Route)}
    {changes : List (Entry BestRoute)} {change : Entry BestRoute}
    (h : Runs.collect (handle id) rib log = .ok (rib', changes)) (hmem : change ∈ changes) :
    ∃ entry ∈ log, change = entry.map BestRoute.ofRoute := by
  induction log generalizing rib changes with
  | nil =>
    obtain ⟨-, rfl⟩ := Prod.mk.inj (Except.ok.inj h)
    exact absurd hmem List.not_mem_nil
  | cons entry rest ih =>
    obtain ⟨next, out, later, hhandle, hrest, rfl⟩ := Runs.collect_cons_ok.mp h
    rcases List.mem_append.mp hmem with hout | hlater
    · obtain rfl := Option.mem_toList.mp hout
      refine ⟨entry, List.mem_cons_self, ?_⟩
      cases entry with
      | add route =>
        obtain ⟨⟨reached, report⟩, hinsert, heq⟩ := Runs.map_eq_ok.mp hhandle
        obtain ⟨-, -, -, -, hreport⟩ := BgpRib.insertRoute_ok hinsert
        obtain ⟨-, hchange⟩ := Prod.mk.inj heq
        obtain ⟨best, hbest, rfl⟩ := Option.map_eq_some_iff.mp hchange
        obtain rfl : report = some best := hbest
        by_cases hall : ∀ x ∈ rib.stored route.pfx, (x.cmp route).isLE
        · rw [if_pos hall] at hreport
          rw [Option.some.inj hreport]
          rfl
        · rw [if_neg hall] at hreport
          cases hreport
      | retract route =>
        obtain ⟨report, hremove, hchange⟩ := removeRoute_of_handle hhandle
        obtain ⟨-, -, -, -, -, -, hreport⟩ := BgpRib.removeRoute_ok hremove
        obtain ⟨best, rfl, rfl⟩ := Option.map_eq_some_iff.mp hchange.symm
        by_cases hbest : BestRoute.calculate (rib.stored route.pfx) = some (BestRoute.ofRoute route)
        · rw [if_pos hbest] at hreport
          rw [Option.some.inj hreport]
          rfl
        · rw [if_neg hbest] at hreport
          cases hreport
    · obtain ⟨entry', hentry', hchange⟩ := ih hrest hlater
      exact ⟨entry', List.mem_cons_of_mem _ hentry', hchange⟩

/-- What an update adds to the collected changes. -/
theorem mem_updateLocked {self self' : BgpRibInterface} {rib rib' : BgpRib} {ad : Advertisement}
    (h : self.updateLocked forms rib ad = .ok (rib', self')) :
    (∀ best ∈ self'.bestrouteUpdates.1, best ∈ self.bestrouteUpdates.1 ∨
      ∃ route ∈ ad.getAnnouncements forms, best = .ofRoute route) ∧
    ∀ best ∈ self'.bestrouteUpdates.2, best ∈ self.bestrouteUpdates.2 ∨
      ∃ route ∈ ad.getWithdrawals forms, best = .ofRoute route := by
  rw [updateLocked_eq] at h
  obtain ⟨⟨next, changes⟩, hcollect, heq⟩ := Runs.map_eq_ok.mp h
  obtain ⟨rfl, rfl⟩ := Prod.mk.inj heq
  refine ⟨?_, ?_⟩
  · intro best hbest
    rcases List.mem_append.mp hbest with hold | hnew
    · exact Or.inl hold
    · right
      obtain ⟨entry, hentry, hchange⟩ := mem_changes_of_collect hcollect (mem_added.mp hnew)
      cases entry with
      | retract route => cases hchange
      | add route =>
        refine ⟨route, ?_, Entry.add.inj hchange⟩
        simpa [Advertisement.entries] using hentry
  · intro best hbest
    rcases List.mem_append.mp hbest with hold | hnew
    · exact Or.inl hold
    · right
      obtain ⟨entry, hentry, hchange⟩ := mem_changes_of_collect hcollect (mem_retracted.mp hnew)
      cases entry with
      | add route => cases hchange
      | retract route =>
        refine ⟨route, ?_, Entry.retract.inj hchange⟩
        simpa [Advertisement.entries] using hentry

theorem port_mem (hat : self.interfaceAt n = some interface) :
    some (portOf interface) ∈ (settingOf self).ports := by
  have hport := portAt_eq self n
  rw [hat, Option.map_some] at hport
  exact List.mem_of_getElem? (Option.join_eq_some_iff.mp hport)

/-- A closed flow has whatever threads with its settings do. -/
theorem Closed.covers (hclosed : Closed forms flow settings)
    (hsetting : settings i = some (settingOf self)) (effect : Effect) :
    Covers forms flow i self effect := by
  cases effect with
  | take c message =>
    cases message with
    | foreign type => trivial
    | advertisement ad =>
      intro n interface _ hat hin hcarried hkeep
      exact hclosed.receives i _ (portOf interface) c ad hsetting (port_mem hat) hin hcarried hkeep
  | apply rib client ad =>
    intro hinbound
    exact ⟨fun route hroute => hclosed.announces i ad route hinbound hroute,
      fun route hroute => hclosed.withdraws i ad route hinbound hroute⟩
  | publish ad =>
    rintro hannounced hwithdrawn ⟨timestamp, rfl⟩
    exact hclosed.tells i _ timestamp _ hsetting hannounced hwithdrawn
  | put c message =>
    cases message with
    | foreign type => trivial
    | advertisement ad =>
      intro n interface own rest _ hat hout houtbound hfilter
      have hcarried := hclosed.sends i _ (portOf interface) c own hsetting (port_mem hat) hout
        houtbound (congrArg Prod.fst hfilter)
      rwa [show (portOf interface).outFilter own = (true, ad) from hfilter] at hcarried
  | discard c message => trivial
  | refuse c message => trivial
  | skip ad => trivial

theorem interfaceWithin_take {message : Message} {c : ChannelId}
    (hcovers : Covers forms flow i self (.take c message)) (hstage : self.stage = .receiving n)
    (hat : self.interfaceAt n = some interface) (hin : interface.inChannel = some c)
    (hinterface : InterfaceWithin flow i interface)
    (hmessage : ∀ ad, message = .advertisement ad → flow.carried c ad)
    (htake : Endpoint.take interface message = ⟨interface', .receiving⟩) :
    InterfaceWithin flow i interface' := by
  obtain ⟨ad, rfl, ⟨hkeep, hroom, rfl⟩ | ⟨-, rfl⟩⟩ := take_eq_receiving htake
  · refine ⟨?_, hinterface.2⟩
    intro other hother
    rcases List.mem_append.mp hother with hother | hother
    · exact hinterface.1 other hother
    · obtain rfl := List.mem_singleton.mp hother
      exact hcovers n interface hstage hat hin (hmessage ad rfl) hkeep
  · exact hinterface

theorem channelsWithin_pop {c : ChannelId} {message : Message}
    {rest : List Message} (h : ChannelsWithin flow shared.links)
    (hqueue : (shared.links c).queue.items = message :: rest) :
    ChannelsWithin flow (Shared.pop shared c).links ∧
      ∀ ad, message = .advertisement ad → flow.carried c ad := by
  refine ⟨?_, ?_⟩
  · intro other ad had
    refine h other ad ?_
    rw [pop_items ⟨rest, hqueue⟩ other]
    exact List.mem_append_right _ had
  · intro ad had
    refine h c ad ?_
    rw [hqueue, had]
    exact List.mem_cons_self

theorem channelsWithin_setLink {c : ChannelId} {message : Message} {channel : Channel}
    (h : ChannelsWithin flow shared.links)
    (hsend : (shared.links c).trySend message = .ok channel)
    (hmessage : ∀ ad, message = .advertisement ad → flow.carried c ad) :
    ChannelsWithin flow (Shared.setLink shared c channel).links := by
  intro other ad had
  by_cases hother : other = c
  · subst hother
    simp only [Shared.setLink, Function.update_self, Channel.items_of_trySend hsend] at had
    rcases List.mem_append.mp had with had | had
    · exact h other ad had
    · exact hmessage ad (List.mem_singleton.mp had).symm
  · simp only [Shared.setLink, Function.update_of_ne hother] at had
    exact h other ad had

/-- A step of a thread stays within a flow that has its effect, and shows nothing else. -/
theorem Within.steps {effect : Option Effect}
    (hcovers : ∀ done ∈ effect, Covers forms flow i self done)
    (hlinks : ChannelsWithin flow shared.links) (h : Within flow i self)
    (hsteps : Steps forms instant shared self shared' self' effect) :
    ChannelsWithin flow shared'.links ∧ Within flow i self' ∧
      ∀ done ∈ effect, Shows flow (some i, done) := by
  have hnone : ∀ done ∈ (none : Option Effect), Shows flow (some i, done) := by
    intro done hdone
    cases hdone
  cases hsteps with
  | receiveUnset n hstage hat hlt => exact ⟨hlinks, h.atStage trivial, hnone⟩
  | receiveTimedOut n interface hstage hat hin hlock =>
    exact ⟨hlinks, h.atStage trivial, hnone⟩
  | receiveBegin n interface hstage hat hin hlock => exact ⟨hlinks, h.atStage trivial, hnone⟩
  | receiveDone n hstage hlen =>
    exact ⟨hlinks, ⟨h.interfaces, fun ad had => absurd had List.not_mem_nil, h.received,
      h.advertisement, h.announced, h.withdrawn⟩, hnone⟩
  | collect n interface hstage hat hnothing =>
    exact ⟨hlinks, h.collect (h.interfaces n interface hat), hnone⟩
  | take n interface interface' c message rest hstage hat hin hqueue htake =>
    obtain ⟨hpopped, hmessage⟩ := channelsWithin_pop hlinks hqueue
    have hinterface := interfaceWithin_take (hcovers _ rfl) hstage hat hin
      (h.interfaces n interface hat) hmessage htake
    refine ⟨hpopped, (h.setInterface hinterface).atStage trivial, ?_⟩
    intro done hdone
    obtain rfl := Option.some.inj hdone
    obtain ⟨ad, rfl, -⟩ := take_eq_receiving htake
    exact hmessage ad rfl
  | discardForeign n interface c message rest hstage hat hin hqueue hcast =>
    refine ⟨(channelsWithin_pop hlinks hqueue).1,
      (h.setInterface (h.interfaces n interface hat)).atStage trivial, ?_⟩
    intro done hdone
    obtain rfl := Option.some.inj hdone
    trivial
  | discardFull n interface c ad rest hstage hat hin hqueue hkeep hfull =>
    refine ⟨(channelsWithin_pop hlinks hqueue).1, h.collect (h.interfaces n interface hat), ?_⟩
    intro done hdone
    obtain rfl := Option.some.inj hdone
    trivial
  | updateDone hstage => exact ⟨hlinks, h.atStage trivial, hnone⟩
  | skip ad rest hstage hlock =>
    have hads := h.stage
    rw [hstage] at hads
    refine ⟨hlinks, h.atStage (fun other hother => hads other (List.mem_cons_of_mem _ hother)), ?_⟩
    intro done hdone
    obtain rfl := Option.some.inj hdone
    trivial
  | apply ad rest rib ribInterface hstage hlock hupdate =>
    have hads := h.stage
    rw [hstage] at hads
    have had := hads ad List.mem_cons_self
    obtain ⟨hannounces, hwithdraws⟩ := hcovers _ rfl had
    obtain ⟨hannounced, hwithdrawn⟩ := mem_updateLocked hupdate
    refine ⟨hlinks, ⟨h.interfaces, h.received,
      fun other hother => hads other (List.mem_cons_of_mem _ hother), h.advertisement, ?_, ?_⟩, ?_⟩
    · intro best hbest
      rcases hannounced best hbest with hold | ⟨route, hroute, rfl⟩
      · exact h.announced best hold
      · exact hannounces route hroute
    · intro best hbest
      rcases hwithdrawn best hbest with hold | ⟨route, hroute, rfl⟩
      · exact h.withdrawn best hold
      · exact hwithdraws route hroute
    · intro done hdone
      obtain rfl := Option.some.inj hdone
      exact had
  | publish hstage =>
    have htold : flow.outbound i (self.process.getBestRouteChanges.nextAdvertisement forms
        instant.timestamp) :=
      hcovers _ rfl h.announced h.withdrawn ⟨instant.timestamp, rfl⟩
    refine ⟨hlinks, ⟨h.interfaces, h.received, trivial, ?_, ?_, ?_⟩, ?_⟩
    · intro ad had
      rcases List.mem_append.mp had with had | had
      · exact h.advertisement ad had
      · obtain rfl := List.mem_singleton.mp had
        exact htold
    · intro best hbest
      exact absurd hbest List.not_mem_nil
    · intro best hbest
      exact absurd hbest List.not_mem_nil
    · intro done hdone
      obtain rfl := Option.some.inj hdone
      exact htold
  | sendUnset n hstage hat hlt => exact ⟨hlinks, h.atStage trivial, hnone⟩
  | sendNothing n interface hstage hat hnothing =>
    have hpushed := interfaceWithin_pushed h (h.interfaces n interface hat)
    exact ⟨hlinks, (h.setInterface hpushed).atStage trivial, hnone⟩
  | sendBegin n interface hstage hat hout =>
    have hpushed := interfaceWithin_pushed h (h.interfaces n interface hat)
    have hemptied : InterfaceWithin flow i (emptied (pushed self interface)) :=
      ⟨hpushed.1, fun ad had => absurd had List.not_mem_nil⟩
    exact ⟨hlinks, (h.setInterface hemptied).atStage hpushed.2, hnone⟩
  | sendDone n hstage hlen =>
    exact ⟨hlinks, ⟨h.interfaces, h.received, trivial, fun ad had => absurd had List.not_mem_nil,
      h.announced, h.withdrawn⟩, hnone⟩
  | sendingDone n rest hstage hrest => exact ⟨hlinks, h.atStage trivial, hnone⟩
  | filterOut n interface ad rest hstage hat hkeep =>
    have hads := h.stage
    rw [hstage] at hads
    exact ⟨hlinks, h.atStage (fun other hother => hads other (List.mem_cons_of_mem _ hother)),
      hnone⟩
  | put n interface ad rest c channel hstage hat hout hkeep hsend =>
    have hads := h.stage
    rw [hstage] at hads
    have hcarried := hcovers _ rfl n interface ad rest hstage hat hout
      (hads ad List.mem_cons_self) (Prod.ext hkeep rfl)
    have hmessage : ∀ other, Message.advertisement (interface.outFilter ad).2 =
        .advertisement other → flow.carried c other := by
      intro other hother
      rw [← Message.advertisement.inj hother]
      exact hcarried
    refine ⟨channelsWithin_setLink hlinks hsend hmessage,
      h.atStage (fun other hother => hads other (List.mem_cons_of_mem _ hother)), ?_⟩
    intro done hdone
    obtain rfl := Option.some.inj hdone
    exact hcarried
  | refuse n interface ad rest c e hstage hat hout hkeep hsend =>
    refine ⟨hlinks, h.atStage trivial, ?_⟩
    intro done hdone
    obtain rfl := Option.some.inj hdone
    trivial

end Threads

section Networks
variable {ι : Type*} [DecidableEq ι] {forms : TextForms} {flow : Flow ι}
  {state state' : Threads ι} {event : Event ι} {output : Option (Option ι × Effect)}
  {events : List (Event ι)} {history : List (Option ι × Effect)}

/-- All that is under way in the network is in the flow. -/
structure Keeps (flow : Flow ι) (state : Threads ι) : Prop where
  channels : ChannelsWithin flow state.shared.links
  threads : ∀ i self, state.thread i = some self → Within flow i self

/-- What comes from outside belongs to the flow. -/
def Admits (flow : Flow ι) (history : List (Option ι × Effect)) : Prop :=
  ∀ c ad, (none, .put c (.advertisement ad)) ∈ history → flow.carried c ad

theorem settings_moves (h : Moves forms state event state' output) :
    settings state' = settings state := funext h.setting

theorem Keeps.moves (h : Keeps flow state)
    (hcovers : ∀ i instant self effect, event = .act i instant → state.thread i = some self →
      output = some (some i, effect) → Covers forms flow i self effect)
    (hmoves : Moves forms state event state' output) (hadmits : Admits flow output.toList) :
    Keeps flow state' ∧ ∀ entry ∈ output, Shows flow entry := by
  have hnone : ∀ entry ∈ (none : Option (Option ι × Effect)), Shows flow entry := by
    intro entry hentry
    cases hentry
  cases hmoves with
  | absent i instant hthread => exact ⟨h, hnone⟩
  | leaveNothing c hqueue => exact ⟨h, hnone⟩
  | act i instant self self' shared effect hthread hsteps =>
    obtain ⟨hlinks, hself', hshows⟩ := (h.threads i self hthread).steps (fun done hdone =>
      hcovers i instant self done rfl hthread (by rw [Option.mem_def.mp hdone]; rfl)) h.channels
        hsteps
    refine ⟨⟨hlinks, ?_⟩, ?_⟩
    · intro j other hother
      by_cases hij : j = i
      · subst hij
        rw [setThread_self] at hother
        exact Option.some.inj hother ▸ hself'
      · rw [setThread_of_ne state hij] at hother
        exact h.threads j other hother
    · intro entry hentry
      obtain ⟨done, hdone, rfl⟩ := Option.map_eq_some_iff.mp hentry
      exact hshows done hdone
  | arrive c message channel hsend =>
    have hmessage : ∀ ad, message = .advertisement ad → flow.carried c ad := by
      intro ad had
      exact hadmits c ad (by simp [had])
    refine ⟨⟨channelsWithin_setLink h.channels hsend hmessage, h.threads⟩, ?_⟩
    intro entry hentry
    obtain rfl := Option.some.inj hentry
    cases message with
    | advertisement ad => exact hmessage ad rfl
    | foreign type => trivial
  | arriveFull c message e hsend =>
    refine ⟨h, ?_⟩
    intro entry hentry
    obtain rfl := Option.some.inj hentry
    trivial
  | leave c message rest hqueue =>
    obtain ⟨hpopped, hmessage⟩ := channelsWithin_pop h.channels hqueue
    refine ⟨⟨hpopped, h.threads⟩, ?_⟩
    intro entry hentry
    obtain rfl := Option.some.inj hentry
    cases message with
    | advertisement ad => exact hmessage ad rfl
    | foreign type => trivial

/-- A flow that holds at the start, and to which whatever arrives and whatever threads do belongs,
holds at the end, and each effect on the way shows nothing else. -/
theorem Keeps.run_covered (h : Keeps flow state)
    (hcovers : ∀ earlier i self effect, Does forms state events earlier i self effect →
      Covers forms flow i self effect)
    (hrun : run forms state events = .ok (state', history)) (hadmits : Admits flow history) :
    Keeps flow state' ∧ ∀ entry ∈ history, Shows flow entry := by
  induction events generalizing state history with
  | nil =>
    obtain ⟨rfl, rfl⟩ := Prod.mk.inj (Except.ok.inj hrun)
    exact ⟨h, fun entry hentry => absurd hentry List.not_mem_nil⟩
  | cons event rest ih =>
    obtain ⟨next, output, later, hstep, hrest, rfl⟩ := Runs.collect_cons_ok.mp hrun
    have hnow : ∀ i instant self effect, event = .act i instant → state.thread i = some self →
        output = some (some i, effect) → Covers forms flow i self effect := by
      rintro i instant self effect rfl hself rfl
      exact hcovers [] i self effect
        ⟨instant, rest, state, [], next, rfl, rfl, hself, hstep⟩
    obtain ⟨hnext, hshows⟩ := h.moves hnow (moves_of_step hstep)
      (fun c ad hmem => hadmits c ad (List.mem_append_left _ hmem))
    obtain ⟨hend, hlater⟩ := ih hnext
      (fun earlier i self effect hdoes =>
        hcovers (event :: earlier) i self effect (hdoes.cons hstep)) hrest
      (fun c ad hmem => hadmits c ad (List.mem_append_right _ hmem))
    refine ⟨hend, ?_⟩
    intro entry hentry
    rcases List.mem_append.mp hentry with hentry | hentry
    · exact hshows entry (Option.mem_toList.mp hentry)
    · exact hlater entry hentry

theorem setting_of_does {earlier : List (Event ι)} {i : ι} {self : Thread} {effect : Effect}
    (h : Does forms state events earlier i self effect) :
    settings state i = some (settingOf self) := by
  obtain ⟨-, -, reached, before, -, -, hrun, hself, -⟩ := h
  exact (setting_run hrun i).symm.trans (setting_of_thread hself)

/-- A closed flow is never left. -/
theorem Keeps.run_closed (h : Keeps flow state) (hclosed : Closed forms flow (settings state))
    (hrun : run forms state events = .ok (state', history)) (hadmits : Admits flow history) :
    Keeps flow state' ∧ ∀ entry ∈ history, Shows flow entry :=
  h.run_covered (fun _ _ _ effect hdoes => hclosed.covers (setting_of_does hdoes) effect) hrun
    hadmits

end Networks

end NetfabricBgp.Flows
