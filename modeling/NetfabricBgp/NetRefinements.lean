import NetfabricBgp.Origins
import NetfabricBgp.QueueNets
import NetfabricBgp.SpreadRuns

/-!
The threads of a network refine speakers that are joined by queues. The inbox of a speaker is
what its process has yet to apply. On a link is what the receiving interface holds, what is on
the channel, and what the sending process has yet to put there, one behind the other. So every
step of a thread is a few acts of the speakers, and most steps are none.
-/
namespace NetfabricBgp.NetRefinements

open Addresses RouterMasks Ribs RibInterfaces Advertisements BoundedQueues Channels Interfaces
  Sessions Processes Supplies LinkThreads ProcessThreads ThreadSteps ThreadHistories Speakers Flows
  Spreads SpreadRuns QueueNets
open Origins (FiltersKeep)

/-- Which session of which thread writes to a channel and which reads it, and the settings of
the threads. -/
structure Wiring (ι : Type*) where
  source : ChannelId → Option (ι × ℕ)
  target : ChannelId → Option (ι × ℕ)
  voice : ι → Setting

/-- The threads are wired like this, and their filters change nothing. -/
structure Wired {ι : Type*} (wiring : Wiring ι) (settings : ι → Option Setting) : Prop where
  source : ∀ c i m, wiring.source c = some (i, m) ↔ ∃ setting port, settings i = some setting ∧
    setting.ports[m]?.join = some port ∧ port.outChannel = some c
  target : ∀ c i n, wiring.target c = some (i, n) ↔ ∃ setting port, settings i = some setting ∧
    setting.ports[n]?.join = some port ∧ port.inChannel = some c
  voice : ∀ i setting, settings i = some setting → wiring.voice i = setting
  keeps : FiltersKeep settings

/-- The filters at both ends of a channel let everything through. -/
def Clear {ι : Type*} (settings : ι → Option Setting) (c : ChannelId) : Prop :=
  ∀ i setting port ad, settings i = some setting → some port ∈ setting.ports →
    (port.inChannel = some c → (port.inFilter ad).1 = true) ∧
      (port.outChannel = some c → (port.outFilter ad).1 = true)

abbrev SpeakerNet (ι : Type*) := Net ι ChannelId Speaker Advertisement

def speakerNodes {ι : Type*} (forms : TextForms) (wiring : Wiring ι) :
    Nodes ι ChannelId Speaker UInt64 Advertisement where
  source := fun c => (wiring.source c).map Prod.fst
  target := fun c => (wiring.target c).map Prod.fst
  hear := fun _ speaker ad => speaker.hear forms ad
  tell := fun i speaker timestamp =>
    (advertisementOf forms (wiring.voice i) timestamp speaker.pending, speaker.tell)

/-- What a process has received and not yet applied. -/
def deskOf (self : Thread) : List Advertisement :=
  match self.stage with
  | .update rest => rest ++ self.received
  | _ => self.received

/-- What a session has still to put on its channel in this cycle. -/
def unsentAt (self : Thread) (m : ℕ) : List Advertisement :=
  match self.stage with
  | .send k => if k ≤ m then self.process.advertisement else []
  | .sending k rest => if k = m then rest else if k < m then self.process.advertisement else []
  | _ => []

/-- The advertisements on a channel. -/
def queuedOn (shared : Shared) (c : ChannelId) : List Advertisement :=
  (shared.links c).queue.items.filterMap Message.cast

/-- What there is at a session of a thread. -/
def heldAt {ι : Type*} (content : Thread → ℕ → List Advertisement) (state : Threads ι)
    (place : Option (ι × ℕ)) : List Advertisement :=
  place.elim [] (fun place => (state.thread place.1).elim [] (content · place.2))

/-- What is on its way from the source of a channel to its target. -/
def carried {ι : Type*} (wiring : Wiring ι) (state : Threads ι) (c : ChannelId) :
    List Advertisement :=
  heldAt incomingAt state (wiring.target c) ++ queuedOn state.shared c ++
    heldAt unsentAt state (wiring.source c)

/-- An interface without an incoming channel has received nothing. -/
def Deaf (interface : Interface) : Prop :=
  interface.inChannel = none → interface.incomingAdvertisements.items = []

/-- The state of a network of speakers that a network of threads is in. -/
structure Abstracts {ι : Type*} (wiring : Wiring ι) (state : Threads ι) (net : SpeakerNet ι) :
    Prop where
  role : ∀ i self, state.thread i = some self → Role state i self (net.state i)
  tidy : ∀ i self, state.thread i = some self → Tidy self
  deaf : ∀ i self, state.thread i = some self →
    ∀ n interface, self.interfaceAt n = some interface → Deaf interface
  inbox : ∀ i self, state.thread i = some self → net.inbox i = deskOf self
  link : net.link = carried wiring state

/-- What an effect shows of the speakers. -/
def noted {ι : Type*} : Option ι × Effect → Option (Note ι ChannelId Advertisement)
  | (some i, .publish ad) => some (.told i ad)
  | (some i, .apply _ _ ad) => some (.heard i ad)
  | (some i, .skip ad) => some (.missed i ad)
  | (none, .put c (.advertisement ad)) => some (.arrived c ad)
  | _ => none

/-- The effect loses no advertisement on the channel. -/
def Spares {ι : Type*} (c : ChannelId) : Option ι × Effect → Prop
  | (some _, .discard other (.advertisement _)) => other ≠ c
  | (some _, .refuse other _) => other ≠ c
  | (none, .take other _) => other ≠ c
  | _ => True

section Wirings
variable {ι : Type*} {wiring : Wiring ι} {state : Threads ι} {i : ι} {self : Thread}
  {c : ChannelId} {n : ℕ} {interface : Interface}

theorem port_of_at (hself : state.thread i = some self)
    (hat : self.interfaceAt n = some interface) :
    settings state i = some (settingOf self) ∧
      (settingOf self).ports[n]?.join = some (portOf interface) := by
  refine ⟨setting_of_thread hself, ?_⟩
  rw [portAt_eq, hat]
  rfl

theorem heldAt_self (content : Thread → ℕ → List Advertisement)
    (hself : state.thread i = some self) (n : ℕ) :
    heldAt content state (some (i, n)) = content self n := by
  simp [heldAt, hself]

theorem Wired.target_of_at (h : Wired wiring (settings state)) (hself : state.thread i = some self)
    (hat : self.interfaceAt n = some interface) (hin : interface.inChannel = some c) :
    wiring.target c = some (i, n) := by
  obtain ⟨hsetting, hport⟩ := port_of_at hself hat
  exact (h.target c i n).mpr ⟨_, _, hsetting, hport, hin⟩

theorem Wired.source_of_at (h : Wired wiring (settings state)) (hself : state.thread i = some self)
    (hat : self.interfaceAt n = some interface) (hout : interface.outChannel = some c) :
    wiring.source c = some (i, n) := by
  obtain ⟨hsetting, hport⟩ := port_of_at hself hat
  exact (h.source c i n).mpr ⟨_, _, hsetting, hport, hout⟩

theorem Wired.at_of_target (h : Wired wiring (settings state)) (hself : state.thread i = some self)
    (htarget : wiring.target c = some (i, n)) :
    ∃ interface, self.interfaceAt n = some interface ∧ interface.inChannel = some c := by
  obtain ⟨setting, port, hsetting, hport, hin⟩ := (h.target c i n).mp htarget
  obtain rfl := Option.some.inj ((setting_of_thread hself).symm.trans hsetting)
  rw [portAt_eq] at hport
  obtain ⟨interface, hat, rfl⟩ := Option.map_eq_some_iff.mp hport
  exact ⟨interface, hat, hin⟩

theorem Wired.at_of_source (h : Wired wiring (settings state)) (hself : state.thread i = some self)
    (hsource : wiring.source c = some (i, n)) :
    ∃ interface, self.interfaceAt n = some interface ∧ interface.outChannel = some c := by
  obtain ⟨setting, port, hsetting, hport, hout⟩ := (h.source c i n).mp hsource
  obtain rfl := Option.some.inj ((setting_of_thread hself).symm.trans hsetting)
  rw [portAt_eq] at hport
  obtain ⟨interface, hat, rfl⟩ := Option.map_eq_some_iff.mp hport
  exact ⟨interface, hat, hout⟩

theorem Wired.keeps_at (h : Wired wiring (settings state)) (hself : state.thread i = some self)
    (hat : self.interfaceAt n = some interface) (ad : Advertisement) :
    (interface.inFilter ad).2 = ad ∧ (interface.outFilter ad).2 = ad :=
  h.keeps i _ (portOf interface) (setting_of_thread hself) (port_mem hat) ad

end Wirings

section Interfaces
variable {forms : TextForms} {instant : Instant} {shared shared' : Shared} {self self' : Thread}
  {effect : Option Effect} {m : ℕ}

theorem unsentAt_of_not_sending (h : ¬ Sending self.stage) : unsentAt self m = [] := by
  unfold unsentAt
  cases hstage : self.stage with
  | send k =>
    rw [hstage] at h
    exact absurd trivial h
  | sending k rest =>
    rw [hstage] at h
    exact absurd trivial h
  | _ => rfl

theorem pushed_inChannel (self : Thread) (interface : Interface) :
    (pushed self interface).inChannel = interface.inChannel :=
  congrArg Port.inChannel (portOf_pushed self interface)

theorem deaf_pushed {interface : Interface} (h : Deaf interface) :
    Deaf (pushed self interface) := by
  intro hnone
  rw [pushed_incoming]
  exact h ((pushed_inChannel self interface).symm.trans hnone)

/-- Only an interface with an incoming channel receives anything. -/
theorem deaf_steps (h : ∀ n interface, self.interfaceAt n = some interface → Deaf interface)
    (hsteps : Steps forms instant shared self shared' self' effect) :
    ∀ n interface, self'.interfaceAt n = some interface → Deaf interface := by
  cases hsteps with
  | collect n interface hstage hat hnothing =>
    exact forall_interfaceAt_setInterface (fun _ => rfl) h
  | take n interface interface' id message rest hstage hat hin hqueue htake =>
    have hport := congrArg Port.inChannel (portOf_take htake)
    refine forall_interfaceAt_setInterface (fun hnone => ?_) h
    rw [show interface'.inChannel = interface.inChannel from hport, hin] at hnone
    cases hnone
  | discardForeign n interface id message rest hstage hat hin hqueue hcast =>
    exact forall_interfaceAt_setInterface (h n interface hat) h
  | discardFull n interface id ad rest hstage hat hin hqueue hkeep hfull =>
    exact forall_interfaceAt_setInterface (fun _ => rfl) h
  | sendNothing n interface hstage hat hnothing =>
    exact forall_interfaceAt_setInterface (deaf_pushed (h n interface hat)) h
  | sendBegin n interface hstage hat hout =>
    have hpushed : Deaf (emptied (pushed self interface)) :=
      @deaf_pushed self interface (h n interface hat)
    exact forall_interfaceAt_setInterface hpushed h
  | _ => exact h

theorem queuedOn_pop {c : ChannelId} {message : Message} {rest : List Message}
    (hqueue : (shared.links c).queue.items = message :: rest) (c' : ChannelId) :
    queuedOn shared c' =
      (if c = c' then message.cast.toList else []) ++ queuedOn (Shared.pop shared c) c' := by
  unfold queuedOn
  rw [pop_items ⟨rest, hqueue⟩ c', List.filterMap_append]
  by_cases hc : c = c'
  · rw [if_pos hc, if_pos hc]
    cases message <;> rfl
  · rw [if_neg hc, if_neg hc]
    rfl

theorem deskOf_of_hearing (h : Hearing self.stage) : deskOf self = self.received := by
  unfold deskOf
  cases hstage : self.stage with
  | update rest =>
    rw [hstage] at h
    exact h.elim
  | _ => rfl

theorem not_sending_of_hearing (h : Hearing self.stage) : ¬ Sending self.stage := by
  intro hsending
  cases hstage : self.stage <;> rw [hstage] at h hsending <;> trivial

end Interfaces

section Links
variable {ι : Type*} {wiring : Wiring ι} {state : Threads ι} {i : ι} {self : Thread} {n : ℕ}
  {c : ChannelId} {interface : Interface}

/-- What is on the link to a session, before it takes the first message of its channel. -/
theorem carried_before (hwired : Wired wiring (settings state)) (hself : state.thread i = some self)
    (hat : self.interfaceAt n = some interface) (hin : interface.inChannel = some c)
    {message : Message} {rest : List Message}
    (hqueue : (state.shared.links c).queue.items = message :: rest) :
    carried wiring state c = incomingAt self n ++ (message.cast.toList ++
      (queuedOn (Shared.pop state.shared c) c ++ heldAt unsentAt state (wiring.source c))) := by
  rw [carried, hwired.target_of_at hself hat hin, heldAt_self _ hself, queuedOn_pop hqueue,
    if_pos rfl, List.append_assoc, List.append_assoc]

/-- What is on the link away from a session that is sending. -/
theorem carried_sending (hwired : Wired wiring (settings state))
    (hself : state.thread i = some self) {rest : List Advertisement}
    (hstage : self.stage = .sending n rest) (hat : self.interfaceAt n = some interface)
    (hout : interface.outChannel = some c) :
    carried wiring state c =
      heldAt incomingAt state (wiring.target c) ++ queuedOn state.shared c ++ rest := by
  rw [carried, hwired.source_of_at hself hat hout, heldAt_self _ hself]
  simp [unsentAt, hstage]

end Links

section Frames
variable {ι : Type*} [DecidableEq ι] {wiring : Wiring ι} {state : Threads ι} {i : ι}
  {self self' : Thread} {shared : Shared} {content : Thread → ℕ → List Advertisement}
  {place : Option (ι × ℕ)}

/-- A step of a thread changes what there is at its own sessions only. -/
theorem heldAt_setThread (hself : state.thread i = some self)
    (h : ∀ n, place = some (i, n) → content self' n = content self n) :
    heldAt content (Threads.setThread state i self' shared) place = heldAt content state place := by
  cases place with
  | none => rfl
  | some place =>
    obtain ⟨j, n⟩ := place
    by_cases hj : j = i
    · subst hj
      rw [heldAt_self content (setThread_self state j self' shared), heldAt_self content hself,
        h n rfl]
    · simp [heldAt, setThread_of_ne state hj]

theorem queuedOn_of_items {shared' : Shared} {c : ChannelId}
    (h : (shared'.links c).queue.items = (shared.links c).queue.items) :
    queuedOn shared' c = queuedOn shared c := by
  unfold queuedOn
  rw [h]

/-- Whatever is on its way stays on its way. -/
theorem carried_setThread (hself : state.thread i = some self) {c : ChannelId}
    (hin : ∀ n, wiring.target c = some (i, n) → incomingAt self' n = incomingAt self n)
    (hqueue : queuedOn shared c = queuedOn state.shared c)
    (hout : ∀ m, wiring.source c = some (i, m) → unsentAt self' m = unsentAt self m) :
    carried wiring (Threads.setThread state i self' shared) c = carried wiring state c := by
  unfold carried
  rw [heldAt_setThread hself hin, heldAt_setThread hself hout]
  show _ ++ queuedOn shared c ++ _ = _
  rw [hqueue]

/-- What a step of a receiving session changes is on the link to that session. -/
theorem carried_of_receiver (hwired : Wired wiring (settings state))
    (hself : state.thread i = some self) {n : ℕ} {c : ChannelId} {interface : Interface}
    (hat : self.interfaceAt n = some interface) (hin : interface.inChannel = some c)
    (hout : ∀ m, unsentAt self' m = unsentAt self m)
    (hothers : ∀ k, k ≠ n → incomingAt self' k = incomingAt self k)
    (hqueue : ∀ c', c' ≠ c → queuedOn shared c' = queuedOn state.shared c') :
    carried wiring (Threads.setThread state i self' shared) =
      Function.update (carried wiring state) c
        (incomingAt self' n ++ (queuedOn shared c ++ heldAt unsentAt state (wiring.source c))) := by
  have htarget := hwired.target_of_at hself hat hin
  funext c'
  by_cases hc : c' = c
  · subst hc
    rw [Function.update_self, carried, htarget, heldAt_self _ (setThread_self state i _ shared),
      heldAt_setThread hself (fun m _ => hout m), List.append_assoc]
    rfl
  · rw [Function.update_of_ne hc]
    refine carried_setThread hself ?_ (hqueue c' hc) (fun m _ => hout m)
    intro k hk
    apply hothers
    rintro rfl
    obtain ⟨own, hown, hownIn⟩ := hwired.at_of_target hself hk
    obtain rfl := Option.some.inj (hat.symm.trans hown)
    exact hc (Option.some.inj (hownIn.symm.trans hin))

/-- And of a sending session, on the link that leads away from it. -/
theorem carried_of_sender (hwired : Wired wiring (settings state))
    (hself : state.thread i = some self) {n : ℕ} {c : ChannelId} {interface : Interface}
    (hat : self.interfaceAt n = some interface) (hout : interface.outChannel = some c)
    (hin : ∀ k, incomingAt self' k = incomingAt self k)
    (hothers : ∀ m, m ≠ n → unsentAt self' m = unsentAt self m)
    (hqueue : ∀ c', c' ≠ c → queuedOn shared c' = queuedOn state.shared c') :
    carried wiring (Threads.setThread state i self' shared) =
      Function.update (carried wiring state) c
        (heldAt incomingAt state (wiring.target c) ++ queuedOn shared c ++ unsentAt self' n) := by
  have hsource := hwired.source_of_at hself hat hout
  funext c'
  by_cases hc : c' = c
  · subst hc
    rw [Function.update_self, carried, hsource, heldAt_self _ (setThread_self state i _ shared),
      heldAt_setThread hself (fun k _ => hin k)]
    rfl
  · rw [Function.update_of_ne hc]
    refine carried_setThread hself (fun k _ => hin k) (hqueue c' hc) ?_
    intro m hm
    apply hothers
    rintro rfl
    obtain ⟨own, hown, hownOut⟩ := hwired.at_of_source hself hm
    obtain rfl := Option.some.inj (hat.symm.trans hown)
    exact hc (Option.some.inj (hownOut.symm.trans hout))

end Frames

/-- The speakers after a step of a thread. -/
def after {ι : Type*} [DecidableEq ι] (forms : TextForms) (wiring : Wiring ι)
    (net : SpeakerNet ι) (i : ι) (self' : Thread) (effect : Option Effect) (state' : Threads ι) :
    SpeakerNet ι where
  state := Function.update net.state i (heard forms (net.state i) effect)
  inbox := Function.update net.inbox i (deskOf self')
  link := carried wiring state'

/-- Some acts with these notes lead from one net to the other, and lose nothing on the channels
that meet the condition. -/
def Performs {ι : Type*} [DecidableEq ι] (forms : TextForms) (wiring : Wiring ι)
    (net net' : SpeakerNet ι) (notes : List (Note ι ChannelId Advertisement))
    (condition : ChannelId → Prop) : Prop :=
  ∃ acts, QueueNets.run (speakerNodes forms wiring) net acts = .ok (net', notes) ∧
    ∀ c, condition c → ∀ act ∈ acts, ¬ Loses c act

section Kinds
variable {forms : TextForms} {ι : Type*} [DecidableEq ι] {wiring : Wiring ι} {state : Threads ι}
  {net : SpeakerNet ι} {i : ι} {self self' : Thread} {shared : Shared} {instant : Instant}
  {effect : Option Effect} {n : ℕ} {c : ChannelId} {interface : Interface}
  {condition : ChannelId → Prop}

theorem performs_nil : Performs forms wiring net net [] condition :=
  ⟨[], rfl, fun _ _ _ hact => absurd hact List.not_mem_nil⟩

theorem performs_act {net' : SpeakerNet ι} {act : Act ι ChannelId UInt64 Advertisement}
    {note : Option (Note ι ChannelId Advertisement)}
    (hstep : QueueNets.step (speakerNodes forms wiring) net act = .ok (net', note))
    (hloses : ∀ c, condition c → ¬ Loses c act) :
    Performs forms wiring net net' note.toList condition := by
  refine ⟨[act], Runs.collect_cons_ok.mpr ⟨net', note, [], hstep, rfl, ?_⟩, ?_⟩
  · rw [List.append_nil]
  · intro c hc other hother
    rw [List.mem_singleton.mp hother]
    exact hloses c hc

/-- A step that the speakers do not notice. -/
theorem Abstracts.still (h : Abstracts wiring state net) (hself : state.thread i = some self)
    (hheard : heard forms (net.state i) effect = net.state i) (hdesk : deskOf self' = deskOf self)
    (hcarried : ∀ c, carried wiring (Threads.setThread state i self' shared) c =
      carried wiring state c) :
    Performs forms wiring net
      (after forms wiring net i self' effect (Threads.setThread state i self' shared)) []
      condition := by
  have hafter :
      after forms wiring net i self' effect (Threads.setThread state i self' shared) = net := by
    unfold after
    rw [hheard, hdesk, ← h.inbox i self hself, Function.update_eq_self, Function.update_eq_self,
      funext hcarried, ← h.link]
  rw [hafter]
  exact performs_nil

/-- A step that touches no channel and nothing that is to be sent. -/
theorem Abstracts.quiet (h : Abstracts wiring state net) (hself : state.thread i = some self)
    (hdesk : deskOf self' = deskOf self) (hin : ∀ n, incomingAt self' n = incomingAt self n)
    (hout : ∀ m, unsentAt self' m = unsentAt self m) :
    Performs forms wiring net
      (after forms wiring net i self' none (Threads.setThread state i self' state.shared)) []
      condition :=
  h.still hself rfl hdesk (fun _ => carried_setThread hself (fun n _ => hin n) rfl
    (fun m _ => hout m))

/-- A step that loses a stretch of a link. -/
theorem Abstracts.lose (h : Abstracts wiring state net) (hself : state.thread i = some self)
    (hheard : heard forms (net.state i) effect = net.state i) (hdesk : deskOf self' = deskOf self)
    {front lost rest : List Advertisement}
    (hbefore : carried wiring state c = front ++ (lost ++ rest))
    (hcarried : carried wiring (Threads.setThread state i self' shared) =
      Function.update (carried wiring state) c (front ++ rest)) (hc : ¬ condition c) :
    Performs forms wiring net
      (after forms wiring net i self' effect (Threads.setThread state i self' shared)) []
      condition := by
  rw [← h.link] at hbefore
  have hafter :
      after forms wiring net i self' effect (Threads.setThread state i self' shared) =
        { net with link := Function.update net.link c (front ++ rest) } := by
    unfold after
    rw [hheard, hdesk, ← h.inbox i self hself, Function.update_eq_self, Function.update_eq_self,
      hcarried, ← h.link]
  rw [hafter]
  refine performs_act (step_lose hbefore) ?_
  rintro c' hc' rfl
  exact hc hc'

theorem incomingAt_collect (hat : self.interfaceAt n = some interface) (k : ℕ) :
    incomingAt (self.collect n interface) k = if k = n then [] else incomingAt self k :=
  incomingAt_setInterface hat k

theorem deskOf_collect (hhearing : Hearing self.stage) (hat : self.interfaceAt n = some interface) :
    deskOf (self.collect n interface) = deskOf self ++ incomingAt self n := by
  rw [deskOf_of_hearing hhearing, incomingAt, hat]
  rfl

/-- A session's collecting delivers all that its interface has received. -/
theorem run_collect (hwired : Wired wiring (settings state)) (hself : state.thread i = some self)
    (hhearing : Hearing self.stage) (hat : self.interfaceAt n = some interface)
    (hin : interface.inChannel = some c)
    (hqueue : ∀ c', c' ≠ c → queuedOn shared c' = queuedOn state.shared c')
    (hheard : heard forms (net.state i) effect = net.state i)
    (hinbox : net.inbox i = deskOf self)
    (hlink : net.link = Function.update (carried wiring state) c
      (incomingAt self n ++ (queuedOn shared c ++ heldAt unsentAt state (wiring.source c)))) :
    QueueNets.run (speakerNodes forms wiring) net
        (List.replicate (incomingAt self n).length (.deliver c)) =
      .ok (after forms wiring net i (self.collect n interface) effect
        (Threads.setThread state i (self.collect n interface) shared), []) := by
  have htarget : (speakerNodes forms wiring).target c = some i := by
    simp [speakerNodes, hwired.target_of_at hself hat hin]
  have hfront : net.link c =
      incomingAt self n ++ (queuedOn shared c ++ heldAt unsentAt state (wiring.source c)) := by
    rw [hlink, Function.update_self]
  have hunsent : ∀ m, unsentAt (self.collect n interface) m = unsentAt self m := by
    intro m
    rw [unsentAt_of_not_sending (not_sending_of_hearing hhearing)]
    rfl
  have hothers : ∀ k, k ≠ n → incomingAt (self.collect n interface) k = incomingAt self k := by
    intro k hk
    rw [incomingAt_collect hat, if_neg hk]
  rw [run_deliver htarget hfront, after, hheard, Function.update_eq_self,
    deskOf_collect hhearing hat, hinbox, hlink, Function.update_idem,
    carried_of_receiver hwired hself hat hin hunsent hothers hqueue, incomingAt_collect hat,
    if_pos rfl, List.nil_append]

/-- Collecting is noticed by the speakers only if something was received. -/
theorem Abstracts.collect (h : Abstracts wiring state net) (hwired : Wired wiring (settings state))
    (hself : state.thread i = some self) (hhearing : Hearing self.stage)
    (hat : self.interfaceAt n = some interface) :
    Performs forms wiring net (after forms wiring net i (self.collect n interface) none
      (Threads.setThread state i (self.collect n interface) state.shared)) [] condition := by
  cases hin : interface.inChannel with
  | none =>
    have hnothing : incomingAt self n = [] := by
      rw [incomingAt, hat]
      exact h.deaf i self hself n interface hat hin
    refine h.quiet hself ?_ ?_ ?_
    · rw [deskOf_collect hhearing hat, hnothing, List.append_nil]
    · intro k
      rw [incomingAt_collect hat]
      by_cases hk : k = n
      · rw [if_pos hk, hk, hnothing]
      · rw [if_neg hk]
    · intro m
      rw [unsentAt_of_not_sending (not_sending_of_hearing hhearing)]
      rfl
  | some c =>
    refine ⟨_, run_collect hwired hself hhearing hat hin (fun _ _ => rfl) rfl
      (h.inbox i self hself) ?_, ?_⟩
    · have hcontent : incomingAt self n ++
          (queuedOn state.shared c ++ heldAt unsentAt state (wiring.source c)) =
            carried wiring state c := by
        rw [carried, hwired.target_of_at hself hat hin, heldAt_self _ hself, List.append_assoc]
      rw [hcontent, Function.update_eq_self, h.link]
    · intro _ _ act hact
      rw [List.eq_of_mem_replicate hact]
      exact not_false

theorem queuedOn_pop_of_ne {message : Message} {rest : List Message}
    (hqueue : (shared.links c).queue.items = message :: rest) (c' : ChannelId) (hc : c' ≠ c) :
    queuedOn (Shared.pop shared c) c' = queuedOn shared c' := by
  rw [queuedOn_pop hqueue, if_neg (fun heq => hc heq.symm), List.nil_append]

/-- An advertisement that finds no room is lost, and the others are collected. -/
theorem Abstracts.discardFull (h : Abstracts wiring state net)
    (hwired : Wired wiring (settings state)) (hself : state.thread i = some self)
    (hhearing : Hearing self.stage) (hat : self.interfaceAt n = some interface)
    (hin : interface.inChannel = some c) {ad : Advertisement} {rest : List Message}
    (hqueue : (state.shared.links c).queue.items = .advertisement ad :: rest)
    (hc : ¬ condition c) :
    Performs forms wiring net (after forms wiring net i (self.collect n interface)
      (some (.discard c (.advertisement ad)))
      (Threads.setThread state i (self.collect n interface) (Shared.pop state.shared c))) []
      condition := by
  have hlink := carried_before hwired hself hat hin hqueue
  rw [← h.link] at hlink
  have hlost := @step_lose _ _ _ _ _ _ _ (speakerNodes forms wiring) net c _ _ _ hlink
  rw [h.link] at hlost
  refine ⟨_, Runs.collect_cons_ok.mpr ⟨_, none, [], hlost, run_collect hwired hself hhearing hat
    hin (queuedOn_pop_of_ne hqueue) rfl (h.inbox i self hself) rfl, rfl⟩, ?_⟩
  intro c' hc' act hact
  rcases List.mem_cons.mp hact with rfl | hact
  · rintro rfl
    exact hc hc'
  · rw [List.eq_of_mem_replicate hact]
    exact not_false

/-- What a session has taken from its channel is in its interface, or is lost. -/
theorem Abstracts.take (h : Abstracts wiring state net) (hwired : Wired wiring (settings state))
    (hself : state.thread i = some self) (hhearing : Hearing self.stage)
    (hat : self.interfaceAt n = some interface) (hin : interface.inChannel = some c)
    {message : Message} {rest : List Message}
    (hqueue : (state.shared.links c).queue.items = message :: rest) {interface' : Interface}
    {stage : Stage} (hstage : Hearing stage) {kept : List Advertisement}
    (hitems : interface'.incomingAdvertisements.items =
      interface.incomingAdvertisements.items ++ kept)
    (hkept : kept = message.cast.toList ∨ kept = [] ∧ ¬ condition c)
    (hheard : heard forms (net.state i) effect = net.state i) :
    Performs forms wiring net (after forms wiring net i
      ((self.setInterface n interface').atStage stage) effect
      (Threads.setThread state i ((self.setInterface n interface').atStage stage)
        (Shared.pop state.shared c))) [] condition := by
  have hreceived : incomingAt self n = interface.incomingAdvertisements.items := by
    rw [incomingAt, hat]
    rfl
  have hincoming : ∀ k, incomingAt ((self.setInterface n interface').atStage stage) k =
      if k = n then incomingAt self n ++ kept else incomingAt self k := by
    intro k
    refine (incomingAt_setInterface hat k).trans ?_
    rw [hitems, hreceived]
  have hdesk : deskOf ((self.setInterface n interface').atStage stage) = deskOf self := by
    rw [deskOf_of_hearing hhearing]
    exact deskOf_of_hearing hstage
  have hcarried := @carried_of_receiver _ _ wiring state i self
    ((self.setInterface n interface').atStage stage) (Shared.pop state.shared c) hwired hself n c
    interface hat hin
    (fun m => by
      rw [unsentAt_of_not_sending (not_sending_of_hearing hhearing)]
      exact unsentAt_of_not_sending (not_sending_of_hearing hstage))
    (fun k hk => by rw [hincoming, if_neg hk]) (queuedOn_pop_of_ne hqueue)
  have hbefore := carried_before hwired hself hat hin hqueue
  rw [hincoming, if_pos rfl] at hcarried
  rcases hkept with rfl | ⟨rfl, hc⟩
  · refine h.still hself hheard hdesk ?_
    intro c'
    rw [hcarried, List.append_assoc, ← hbefore, Function.update_eq_self]
  · rw [List.append_nil] at hcarried
    exact h.lose hself hheard hdesk hbefore hcarried hc

/-- A sending session that has put nothing on any channel. -/
theorem unsentAt_sending_of_ne {rest rest' : List Advertisement}
    (hstage : self.stage = .sending n rest) {stage : Stage}
    (hnext : stage = .sending n rest' ∨ stage = .send (n + 1)) {m : ℕ} (hm : m ≠ n) :
    unsentAt (self.atStage stage) m = unsentAt self m := by
  have hne : n ≠ m := fun heq => hm heq.symm
  rcases hnext with rfl | rfl
  · simp [unsentAt, Thread.atStage, hstage, hne]
  · have hafter : n + 1 ≤ m ↔ n < m := Nat.succ_le_iff
    simp only [unsentAt, Thread.atStage, hstage, hne, hafter, if_false]

theorem deskOf_sending {rest : List Advertisement} (hstage : self.stage = .sending n rest)
    {stage : Stage} (hnext : Sending stage) : deskOf (self.atStage stage) = deskOf self := by
  cases stage <;> first | exact hnext.elim | simp [deskOf, Thread.atStage, hstage]

/-- An advertisement goes from the sending process to the channel. -/
theorem Abstracts.put (h : Abstracts wiring state net) (hwired : Wired wiring (settings state))
    (hself : state.thread i = some self) {ad : Advertisement} {rest : List Advertisement}
    (hstage : self.stage = .sending n (ad :: rest)) (hat : self.interfaceAt n = some interface)
    (hout : interface.outChannel = some c) {channel : Channel}
    (hsend : (state.shared.links c).trySend (.advertisement ad) = .ok channel) :
    Performs forms wiring net (after forms wiring net i (self.atStage (.sending n rest))
      (some (.put c (.advertisement ad)))
      (Threads.setThread state i (self.atStage (.sending n rest))
        (Shared.setLink state.shared c channel))) [] condition := by
  have hqueue : queuedOn (Shared.setLink state.shared c channel) c =
      queuedOn state.shared c ++ [ad] := by
    unfold queuedOn Shared.setLink
    simp [Function.update_self, Channel.items_of_trySend hsend, Message.cast]
  have hothers : ∀ c', c' ≠ c →
      queuedOn (Shared.setLink state.shared c channel) c' = queuedOn state.shared c' := by
    intro c' hc'
    apply queuedOn_of_items
    simp [Shared.setLink, Function.update_of_ne hc']
  have hcarried := @carried_of_sender _ _ wiring state i self (self.atStage (.sending n rest))
    (Shared.setLink state.shared c channel) hwired hself n c interface hat hout (fun _ => rfl)
    (fun m hm => unsentAt_sending_of_ne hstage (Or.inl rfl) hm) hothers
  have hbefore := carried_sending hwired hself hstage hat hout
  have hunsent : unsentAt (self.atStage (.sending n rest)) n = rest := by
    simp [unsentAt, Thread.atStage]
  refine h.still hself rfl (deskOf_sending hstage trivial) ?_
  intro c'
  rw [hcarried, hqueue, hunsent, List.append_assoc, List.append_assoc, List.singleton_append,
    ← List.append_assoc, ← hbefore, Function.update_eq_self]

/-- What a session does not put on its channel is lost: one advertisement that its filter
rejects, or all when the channel refuses one. -/
theorem Abstracts.unsend (h : Abstracts wiring state net) (hwired : Wired wiring (settings state))
    (hself : state.thread i = some self) {lost rest : List Advertisement}
    (hstage : self.stage = .sending n (lost ++ rest)) (hat : self.interfaceAt n = some interface)
    (hout : interface.outChannel = some c) {stage : Stage}
    (hnext : stage = .sending n rest ∨ stage = .send (n + 1) ∧ rest = []) (hc : ¬ condition c)
    (hheard : heard forms (net.state i) effect = net.state i) :
    Performs forms wiring net (after forms wiring net i (self.atStage stage) effect
      (Threads.setThread state i (self.atStage stage) state.shared)) [] condition := by
  have hunsent : unsentAt (self.atStage stage) n = rest := by
    rcases hnext with rfl | ⟨rfl, rfl⟩
    · simp [unsentAt, Thread.atStage]
    · simp [unsentAt, Thread.atStage]
  have hstages : stage = .sending n rest ∨ stage = .send (n + 1) := hnext.imp id And.left
  have hcarried := @carried_of_sender _ _ wiring state i self (self.atStage stage) state.shared
    hwired hself n c interface hat hout (fun _ => rfl)
    (fun m hm => unsentAt_sending_of_ne hstage hstages hm) (fun _ _ => rfl)
  rw [hunsent] at hcarried
  refine h.lose hself hheard (deskOf_sending hstage ?_)
    (carried_sending hwired hself hstage hat hout) hcarried hc
  rcases hstages with rfl | rfl <;> trivial

/-- What a process applies, its speaker hears. -/
theorem Abstracts.hear (h : Abstracts wiring state net) (hself : state.thread i = some self)
    {ad : Advertisement} {rest : List Advertisement} (hstage : self.stage = .update (ad :: rest))
    (rib : BgpRib) (ribInterface : BgpRibInterface) (client : Uuid) :
    Performs forms wiring net
      (after forms wiring net i ((withRibInterface self ribInterface).atStage (.update rest))
        (some (.apply self.rib client ad))
        (Threads.setThread state i ((withRibInterface self ribInterface).atStage (.update rest))
          (Shared.setRib state.shared self.rib rib))) [.heard i ad] condition := by
  have hinbox : net.inbox i = ad :: (rest ++ self.received) := by
    rw [h.inbox i self hself]
    simp [deskOf, hstage]
  have hcarried : carried wiring
      (Threads.setThread state i ((withRibInterface self ribInterface).atStage (.update rest))
        (Shared.setRib state.shared self.rib rib)) = net.link := by
    rw [h.link]
    funext c
    refine carried_setThread hself (fun _ _ => rfl) rfl ?_
    intro m _
    simp [unsentAt, Thread.atStage, hstage]
  refine @performs_act _ _ _ _ _ _ _ (.hear i) (some (.heard i ad)) ?_ (fun _ _ => not_false)
  unfold after
  rw [hcarried]
  simp only [QueueNets.step, hinbox]
  rfl

theorem Abstracts.miss (h : Abstracts wiring state net) (hself : state.thread i = some self)
    {ad : Advertisement} {rest : List Advertisement}
    (hstage : self.stage = .update (ad :: rest)) :
    Performs forms wiring net (after forms wiring net i (self.atStage (.update rest))
      (some (.skip ad)) (Threads.setThread state i (self.atStage (.update rest)) state.shared))
      [.missed i ad] condition := by
  have hinbox : net.inbox i = ad :: (rest ++ self.received) := by
    rw [h.inbox i self hself]
    simp [deskOf, hstage]
  have hcarried : carried wiring
      (Threads.setThread state i (self.atStage (.update rest)) state.shared) = net.link := by
    rw [h.link]
    funext c
    refine carried_setThread hself (fun _ _ => rfl) rfl ?_
    intro m _
    simp [unsentAt, Thread.atStage, hstage]
  refine @performs_act _ _ _ _ _ _ _ (.miss i) (some (.missed i ad)) ?_ (fun _ _ => not_false)
  unfold after
  rw [hcarried, show heard forms (net.state i) (some (.skip ad)) = net.state i from rfl,
    Function.update_eq_self]
  simp only [QueueNets.step, hinbox]
  rfl

/-- What a process publishes, its speaker tells on all its links. -/
theorem Abstracts.tell (h : Abstracts wiring state net) (hwired : Wired wiring (settings state))
    (hself : state.thread i = some self) (hstage : self.stage = .publish) (timestamp : UInt64) :
    Performs forms wiring net (after forms wiring net i (self.publish forms timestamp).1
      (some (self.publish forms timestamp).2)
      (Threads.setThread state i (self.publish forms timestamp).1 state.shared))
      [.told i (self.process.getBestRouteChanges.nextAdvertisement forms timestamp)] condition := by
  have hnone : self.process.advertisement = [] :=
    (h.tidy i self hself).advertisement.2 (by rw [hstage]; exact not_false)
  have htold : advertisementOf forms (wiring.voice i) timestamp (net.state i).pending =
      self.process.getBestRouteChanges.nextAdvertisement forms timestamp := by
    rw [hwired.voice i _ (setting_of_thread hself), ← (h.role i self hself).speaks.pending]
    rfl
  have hdesk : deskOf (self.publish forms timestamp).1 = deskOf self := by
    simp [deskOf, Thread.publish, hstage]
  have hcarried : carried wiring
      (Threads.setThread state i (self.publish forms timestamp).1 state.shared) =
        fun c => if (speakerNodes forms wiring).source c = some i then
          net.link c ++ [self.process.getBestRouteChanges.nextAdvertisement forms timestamp]
        else net.link c := by
    funext c
    rw [h.link]
    by_cases hc : ∃ m, wiring.source c = some (i, m)
    · obtain ⟨m, hm⟩ := hc
      have hin : ∀ k, incomingAt (self.publish forms timestamp).1 k = incomingAt self k :=
        fun _ => rfl
      rw [if_pos (by simp [speakerNodes, hm]), carried, carried, hm, heldAt_self _ hself,
        heldAt_self _ (setThread_self state i _ _), heldAt_setThread hself (fun k _ => hin k)]
      simp [unsentAt, Thread.publish, hstage, BgpProcess.generateAdvertisement,
        BgpProcess.getBestRouteChanges, hnone, Threads.setThread]
    · rw [if_neg]
      · exact carried_setThread hself (fun _ _ => rfl) rfl (fun m hm => absurd ⟨m, hm⟩ hc)
      · intro hsource
        obtain ⟨⟨j, m⟩, hm, rfl⟩ := Option.map_eq_some_iff.mp hsource
        exact hc ⟨m, hm⟩
  refine @performs_act _ _ _ _ _ _ _ (.tell i timestamp) (some (.told i _)) ?_
    (fun _ _ => not_false)
  unfold after
  rw [hcarried, hdesk, ← h.inbox i self hself, Function.update_eq_self, ← htold]
  rfl

end Kinds

end NetfabricBgp.NetRefinements
