import NetfabricBgp.Incidences
import NetfabricBgp.LinkThreads
import NetfabricBgp.Networks

/-!
A link between two interfaces neither reorders, duplicates nor invents advertisements. What
is on its way from one end to the other sits in three queues; a step moves the front of one
to the back of the next, or drops something, so what is on its way after a step is a
sublist of what was on its way before it and what the step pushed.
-/
namespace NetfabricBgp.LinkOrders

open Addresses RouterMasks Advertisements BoundedQueues Channels Interfaces Supplies MessageBuses
  Networks Incidences LinkThreads

/-- A filter that decides without changing the element. -/
def Keeps (filter : Interfaces.Filter Advertisement) : Prop := ∀ ad, (filter ad).2 = ad

/-- The advertisements on a channel. -/
def waiting (links : Links) (channel : ChannelId) : List Advertisement :=
  (links channel).queue.items.filterMap Message.cast

/-- A new channel has nothing on it. -/
theorem waiting_create (links : Links) (channel : ChannelId) (bound : ℕ) :
    waiting (Function.update links channel (Channel.create bound)) channel = [] := by
  unfold waiting
  rw [Function.update_self]
  rfl

theorem waiting_update_of_ne {channel other : ChannelId} (links : Links) (changed : Channel)
    (h : other ≠ channel) :
    waiting (Function.update links channel changed) other = waiting links other := by
  unfold waiting
  rw [Function.update_of_ne h]

/-- What an endpoint still has to send. -/
def unsent (endpoint : Endpoint) : List Advertisement :=
  (match endpoint.activity with
    | .sending rest => rest
    | _ => []) ++ endpoint.interface.outgoingAdvertisements.items

/-- What a call pushes. -/
def pushed : Action → List Advertisement
  | .pushOutgoingAdvertisement advertisement => [advertisement]
  | .pushOutgoingAdvertisements advertisements => advertisements
  | _ => []

theorem pushed_proceed : pushed .proceed = [] := rfl

section Beginning
variable {self : Interface}

/-- Channels and filters of an interface are not changed by its calls. -/
def SameSetting (self other : Interface) : Prop :=
  other.inChannel = self.inChannel ∧ other.outChannel = self.outChannel ∧
    other.inFilter = self.inFilter ∧ other.outFilter = self.outFilter

/-- What the buffers lose and gain before a loop begins. -/
structure Begins (before : Interface) (action : Action) (endpoint : Endpoint)
    (returned : List Advertisement) : Prop where
  same : SameSetting before endpoint.interface
  incoming : (returned ++ endpoint.interface.incomingAdvertisements.items).Sublist
    before.incomingAdvertisements.items
  outgoing : (unsent endpoint).Sublist (before.outgoingAdvertisements.items ++ pushed action)

theorem begins_of_outgoing {action : Action} (outgoing : Bounded Advertisement)
    (h : outgoing.items.Sublist (self.outgoingAdvertisements.items ++ pushed action)) :
    Begins self action ⟨{ self with outgoingAdvertisements := outgoing }, .idle⟩ [] :=
  ⟨⟨rfl, rfl, rfl, rfl⟩, List.Sublist.refl _, h⟩

theorem begins_idle (self : Interface) (action : Action) : Begins self action ⟨self, .idle⟩ [] :=
  begins_of_outgoing self.outgoingAdvertisements (List.sublist_append_left _ _)

theorem begins_push (ad : Advertisement) :
    Begins self (.pushOutgoingAdvertisement ad) ⟨(self.pushOutgoingAdvertisement ad).1, .idle⟩
      [] := by
  by_cases hnone : self.outChannel.isNone = true
  · rw [Interface.pushOutgoingAdvertisement_of_none hnone]
    exact begins_idle self _
  · rcases Nat.eq_zero_or_pos self.outgoingAdvertisements.room with hfull | hroom
    · rw [Interface.pushOutgoingAdvertisement_of_full hnone hfull]
      exact begins_idle self _
    · rw [Interface.pushOutgoingAdvertisement_of_room hnone (Bounded.room_pos.mp hroom)]
      exact begins_of_outgoing _ (List.Sublist.refl _)

theorem begins_pushAll (ads : List Advertisement) :
    Begins self (.pushOutgoingAdvertisements ads) ⟨(self.pushOutgoingAdvertisements ads).1, .idle⟩
      [] := by
  by_cases hnone : self.outChannel.isNone = true
  · rw [Interface.pushOutgoingAdvertisements_of_none hnone]
    exact begins_idle self _
  · rw [Interface.pushOutgoingAdvertisements_of_some hnone]
    exact begins_of_outgoing _ ((List.Sublist.refl _).append (List.take_sublist _ _))

theorem begins (self : Interface) (action : Action) :
    Begins self action (Endpoint.begin self action).1 (Endpoint.begin self action).2 := by
  cases action with
  | pushOutgoingAdvertisement ad => exact begins_push ad
  | pushOutgoingAdvertisements ads => exact begins_pushAll ads
  | send =>
    unfold Endpoint.begin
    by_cases hnil : self.outgoingAdvertisements.items = []
    · simp only [hnil, if_true]
      exact begins_idle self _
    · simp only [hnil, if_false]
      cases hout : self.outChannel with
      | none => exact begins_idle self _
      | some id =>
        refine ⟨⟨rfl, hout.symm, rfl, rfl⟩, List.Sublist.refl _, ?_⟩
        show (self.outgoingAdvertisements.items ++ []).Sublist _
        exact List.Sublist.refl _
  | receive lock =>
    unfold Endpoint.begin
    cases self.inChannel with
    | none => exact begins_idle self _
    | some id =>
      cases lock with
      | timedOut => exact begins_idle self _
      | acquired =>
        exact ⟨⟨rfl, rfl, rfl, rfl⟩, List.Sublist.refl _, List.sublist_append_left _ _⟩
  | getIncomingAdvertisements =>
    refine ⟨⟨rfl, rfl, rfl, rfl⟩, ?_, List.sublist_append_left _ _⟩
    show (self.incomingAdvertisements.items ++ []).Sublist _
    rw [List.append_nil]
  | setBufferSize incoming outgoing =>
    exact ⟨⟨rfl, rfl, rfl, rfl⟩, List.Sublist.refl _, List.sublist_append_left _ _⟩
  | forceResize =>
    exact ⟨⟨rfl, rfl, rfl, rfl⟩, List.nil_sublist _, List.nil_sublist _⟩
  | proceed => exact begins_idle self _

end Beginning

section Proceeding
variable {self : Interface} {links : Links} {channel : ChannelId}

theorem SameSetting.refl (self : Interface) : SameSetting self self := ⟨rfl, rfl, rfl, rfl⟩

/-- A round of `send` moves the first element on, or drops it, and touches its own channel
only. -/
structure Sends (before : Interface) (links : Links) (ad : Advertisement)
    (rest : List Advertisement) (after : Links × Endpoint) : Prop where
  interface : after.2.interface = before
  frame : ∀ channel, before.outChannel ≠ some channel → after.1 channel = links channel
  moved : ∀ channel, before.outChannel = some channel →
    (waiting after.1 channel ++ (unsent after.2).filter (fun ad => (before.outFilter ad).1)).Sublist
      (waiting links channel ++
        (ad :: rest ++ before.outgoingAdvertisements.items).filter
          (fun ad => (before.outFilter ad).1))

/-- What is dropped can be anything at the end of what was waiting. -/
theorem sends_of_dropped {ad : Advertisement} {rest : List Advertisement} {activity : Activity}
    (h : (unsent ⟨self, activity⟩).Sublist (ad :: rest ++ self.outgoingAdvertisements.items)) :
    Sends self links ad rest (links, ⟨self, activity⟩) :=
  ⟨rfl, fun _ _ => rfl, fun _ _ => (List.Sublist.refl _).append (h.filter _)⟩

theorem sendNext_sends (hkeeps : Keeps self.outFilter) (links : Links) (ad : Advertisement)
    (rest : List Advertisement) :
    Sends self links ad rest (Endpoint.sendNext self links ad rest) := by
  have hgone : (unsent ⟨self, .idle⟩).Sublist (ad :: rest ++ self.outgoingAdvertisements.items) :=
    List.sublist_append_right _ _
  have hnext : (unsent ⟨self, .sending rest⟩).Sublist
      (ad :: rest ++ self.outgoingAdvertisements.items) := List.sublist_cons_self _ _
  unfold Endpoint.sendNext
  simp only [hkeeps ad]
  by_cases hkeep : (self.outFilter ad).1 = true
  · rw [if_pos hkeep]
    cases hout : self.outChannel with
    | none => exact sends_of_dropped hgone
    | some id =>
      cases hsend : (links id).trySend (.advertisement ad) with
      | error e =>
        simp only [hsend]
        exact sends_of_dropped hgone
      | ok sent =>
        simp only [hsend]
        refine ⟨rfl, ?_, ?_⟩
        · intro channel hne
          have hother : channel ≠ id := by
            intro heq
            rw [heq] at hne
            exact hne hout
          exact Function.update_of_ne hother _ _
        · intro channel hchannel
          obtain rfl := Option.some.inj (hout.symm.trans hchannel)
          have hqueue : waiting (Function.update links id sent) id = waiting links id ++ [ad] := by
            unfold waiting
            rw [Function.update_self, Channel.items_of_trySend hsend, List.filterMap_append]
            rfl
          show (waiting (Function.update links id sent) id ++
            (rest ++ self.outgoingAdvertisements.items).filter _).Sublist _
          rw [hqueue, List.cons_append,
            List.filter_cons_of_pos (p := fun ad => (self.outFilter ad).1) hkeep,
            List.append_assoc, List.singleton_append]
  · rw [if_neg hkeep]
    exact sends_of_dropped hnext

/-- A round of `receive` moves the first message on, or drops it, and touches its own channel
only. -/
structure Receives (before : Interface) (links : Links) (after : Links × Endpoint) : Prop where
  same : SameSetting before after.2.interface
  outgoing : unsent after.2 = before.outgoingAdvertisements.items
  frame : ∀ channel, before.inChannel ≠ some channel → after.1 channel = links channel
  moved : ∀ channel, before.inChannel = some channel →
    (after.2.interface.incomingAdvertisements.items ++
        (waiting after.1 channel).filter (fun ad => (before.inFilter ad).1)).Sublist
      (before.incomingAdvertisements.items ++
        (waiting links channel).filter (fun ad => (before.inFilter ad).1))

/-- The message a round of `receive` took is in the buffer, refused or lost. -/
theorem take_moved (hkeeps : Keeps self.inFilter) (message : Message) :
    SameSetting self (Endpoint.take self message).interface ∧
      unsent (Endpoint.take self message) = self.outgoingAdvertisements.items ∧
      (Endpoint.take self message).interface.incomingAdvertisements.items.Sublist
        (self.incomingAdvertisements.items ++
          message.cast.toList.filter (fun ad => (self.inFilter ad).1)) := by
  unfold Endpoint.take
  cases message.cast with
  | none => exact ⟨SameSetting.refl self, rfl, List.sublist_append_left _ _⟩
  | some ad =>
    simp only [hkeeps ad]
    by_cases hkeep : (self.inFilter ad).1 = true
    · rw [if_pos hkeep]
      by_cases hroom : self.incomingAdvertisements.items.length <
        self.incomingAdvertisements.capacity
      · rw [dif_pos hroom]
        refine ⟨SameSetting.refl self, rfl, ?_⟩
        show (self.incomingAdvertisements.items ++ [ad]).Sublist _
        rw [Option.toList_some,
          List.filter_cons_of_pos (p := fun ad => (self.inFilter ad).1) hkeep, List.filter_nil]
      · rw [dif_neg hroom]
        exact ⟨SameSetting.refl self, rfl, List.sublist_append_left _ _⟩
    · rw [if_neg hkeep]
      exact ⟨SameSetting.refl self, rfl, List.sublist_append_left _ _⟩

theorem receives_nothing (self : Interface) (links : Links) :
    Receives self links (links, ⟨self, .idle⟩) :=
  ⟨SameSetting.refl self, rfl, fun _ _ => rfl, fun _ _ => List.Sublist.refl _⟩

theorem receiveNext_receives (hkeeps : Keeps self.inFilter) (links : Links) :
    Receives self links (Endpoint.receiveNext self links) := by
  unfold Endpoint.receiveNext
  cases hin : self.inChannel with
  | none => exact receives_nothing self links
  | some id =>
    cases hqueue : (links id).queue.items with
    | nil =>
      simp only [hqueue]
      exact receives_nothing self links
    | cons message rest =>
      obtain ⟨hsame, houtgoing, hincoming⟩ := take_moved hkeeps message
      simp only [hqueue]
      refine ⟨hsame, houtgoing, ?_, ?_⟩
      · intro channel hne
        have hother : channel ≠ id := by
          intro heq
          rw [heq] at hne
          exact hne hin
        exact Function.update_of_ne hother _ _
      · intro channel hchannel
        obtain rfl := Option.some.inj (hin.symm.trans hchannel)
        have hbefore : waiting links id = message.cast.toList ++ rest.filterMap Message.cast := by
          unfold waiting
          rw [hqueue]
          cases hcast : message.cast <;> simp [hcast]
        have hafter : waiting (Function.update links id (Endpoint.pop (links id))) id =
            rest.filterMap Message.cast := by
          unfold waiting
          rw [Function.update_self]
          simp [Endpoint.pop, Bounded.keepSuffix, hqueue]
        rw [hbefore, hafter, List.filter_append, ← List.append_assoc]
        exact hincoming.append (List.Sublist.refl _)

end Proceeding

section Stepping
variable {self : Endpoint} {links : Links}

/-- What a step of an endpoint does to what it sends, and to what it receives. -/
structure Steps (before : Endpoint) (links : Links) (action : Action)
    (after : Links × Endpoint × List Advertisement) : Prop where
  same : SameSetting before.interface after.2.1.interface
  sent : ∀ channel, before.interface.outChannel = some channel →
    before.interface.inChannel ≠ some channel →
      (waiting after.1 channel ++
          (unsent after.2.1).filter (fun ad => (before.interface.outFilter ad).1)).Sublist
        (waiting links channel ++
          (unsent before ++ pushed action).filter (fun ad => (before.interface.outFilter ad).1))
  received : ∀ channel, before.interface.inChannel = some channel →
    before.interface.outChannel ≠ some channel →
      (after.2.2 ++ after.2.1.interface.incomingAdvertisements.items ++
          (waiting after.1 channel).filter (fun ad => (before.interface.inFilter ad).1)).Sublist
        (before.interface.incomingAdvertisements.items ++
          (waiting links channel).filter (fun ad => (before.interface.inFilter ad).1))

/-- A step that leaves the channels alone and has nothing new to send. -/
theorem steps_of_begins {action : Action} {endpoint : Endpoint} {returned : List Advertisement}
    (hsame : SameSetting self.interface endpoint.interface)
    (hunsent : (unsent endpoint).Sublist (unsent self ++ pushed action))
    (hincoming : (returned ++ endpoint.interface.incomingAdvertisements.items).Sublist
      self.interface.incomingAdvertisements.items) :
    Steps self links action (links, endpoint, returned) := by
  refine ⟨hsame, ?_, ?_⟩
  · intro channel _ _
    exact (List.Sublist.refl _).append (hunsent.filter _)
  · intro channel _ _
    exact hincoming.append (List.Sublist.refl _)

theorem steps_idle (self : Endpoint) (links : Links) (action : Action) :
    Steps self links action (links, self, []) :=
  steps_of_begins (SameSetting.refl _) (List.sublist_append_left _ _) (List.Sublist.refl _)

theorem steps_of_sends {ad : Advertisement} {rest : List Advertisement} {after : Links × Endpoint}
    (hactivity : self.activity = .sending (ad :: rest))
    (h : Sends self.interface links ad rest after) :
    Steps self links .proceed (after.1, after.2, []) := by
  have hunsent : unsent self = ad :: rest ++ self.interface.outgoingAdvertisements.items := by
    rw [unsent, hactivity]
  refine ⟨?_, ?_, ?_⟩
  · show SameSetting self.interface after.2.interface
    rw [h.interface]
    exact SameSetting.refl _
  · intro channel hout _
    rw [hunsent, pushed_proceed, List.append_nil]
    exact h.moved channel hout
  · intro channel _ hout
    show (after.2.interface.incomingAdvertisements.items ++
      (waiting after.1 channel).filter _).Sublist _
    rw [h.interface, waiting, h.frame channel hout]
    exact List.Sublist.refl _

theorem steps_of_receives {after : Links × Endpoint} (hactivity : self.activity = .receiving)
    (h : Receives self.interface links after) :
    Steps self links .proceed (after.1, after.2, []) := by
  refine ⟨h.same, ?_, ?_⟩
  · intro channel _ hin
    show (waiting after.1 channel ++ (unsent after.2).filter _).Sublist _
    rw [h.outgoing, waiting, h.frame channel hin, unsent, hactivity, pushed_proceed,
      List.append_nil]
    exact List.Sublist.refl _
  · intro channel hin _
    exact h.moved channel hin

theorem steps (hout : Keeps self.interface.outFilter) (hin : Keeps self.interface.inFilter)
    (links : Links) (action : Action) : Steps self links action (self.step links action) := by
  by_cases hproceed : action = .proceed
  · subst hproceed
    show Steps self links .proceed ((self.proceed links).1, (self.proceed links).2, [])
    unfold Endpoint.proceed
    cases hactivity : self.activity with
    | idle => exact steps_idle self links .proceed
    | sending rest =>
      cases rest with
      | nil =>
        have hunsent :
            (unsent ⟨self.interface, .idle⟩).Sublist (unsent self ++ pushed .proceed) := by
          rw [unsent, unsent, hactivity]
          exact List.sublist_append_left _ _
        exact steps_of_begins (SameSetting.refl _) hunsent (List.Sublist.refl _)
      | cons ad rest => exact steps_of_sends hactivity (sendNext_sends hout links ad rest)
    | receiving => exact steps_of_receives hactivity (receiveNext_receives hin links)
  · by_cases hidle : self.activity = .idle
    · have h := begins self.interface action
      have hunsent : unsent self = self.interface.outgoingAdvertisements.items := by
        rw [unsent, hidle, List.nil_append]
      rw [Endpoint.step_of_idle hidle hproceed]
      exact steps_of_begins h.same (hunsent ▸ h.outgoing) h.incoming
    · rw [Endpoint.step_of_busy hidle hproceed]
      exact steps_idle self links action

end Stepping

/-- Both ends of a link, and all that the calls of `get_incoming_advertisements` at an end
have returned. -/
structure Link where
  links : Links
  endpoint : Side → Endpoint
  returned : Side → List Advertisement

namespace Link

def start (links : Links) (interface : Side → Interface) : Link :=
  ⟨links, fun side => ⟨interface side, .idle⟩, fun _ => []⟩

def step (self : Link) (move : Side × Action) : Link :=
  let (links, endpoint, returned) := (self.endpoint move.1).step self.links move.2
  { links := links
    endpoint := Function.update self.endpoint move.1 endpoint
    returned := Function.update self.returned move.1 (self.returned move.1 ++ returned) }

/-- The steps of the two ends, in any order. -/
def run (self : Link) (moves : List (Side × Action)) : Link := moves.foldl step self

end Link

/-- All that is pushed at one end. -/
def pushedAt (side : Side) (moves : List (Side × Action)) : List Advertisement :=
  moves.flatMap (fun move => if move.1 = side then pushed move.2 else [])

section Custody
variable {inFilter outFilter : Side → Interfaces.Filter Advertisement}
  {channel : Side → ChannelId}

/-- The ends are joined crosswise by two channels and have these filters. -/
structure Joined (channel : Side → ChannelId)
    (inFilter outFilter : Side → Interfaces.Filter Advertisement)
    (link : Link) : Prop where
  inChannel : ∀ side, (link.endpoint side).interface.inChannel = some (channel side.other)
  outChannel : ∀ side, (link.endpoint side).interface.outChannel = some (channel side)
  inFilter : ∀ side, (link.endpoint side).interface.inFilter = inFilter side
  outFilter : ∀ side, (link.endpoint side).interface.outFilter = outFilter side

/-- What one end has sent, or still has to send, and the other has not refused. -/
def custody (channel : Side → ChannelId)
    (inFilter outFilter : Side → Interfaces.Filter Advertisement)
    (sender : Side) (link : Link) : List Advertisement :=
  link.returned sender.other ++
    (link.endpoint sender.other).interface.incomingAdvertisements.items ++
    (waiting link.links (channel sender) ++ (unsent (link.endpoint sender)).filter
      (fun ad => (outFilter sender ad).1)).filter (fun ad => (inFilter sender.other ad).1)

/-- The advertisements that satisfy the sender's out-filter and the receiver's in-filter. -/
def passing (inFilter outFilter : Side → Interfaces.Filter Advertisement) (sender : Side)
    (ads : List Advertisement) : List Advertisement :=
  (ads.filter (fun ad => (outFilter sender ad).1)).filter (fun ad => (inFilter sender.other ad).1)

theorem Joined.step {link : Link} (h : Joined channel inFilter outFilter link)
    (hin : ∀ side, Keeps (inFilter side)) (hout : ∀ side, Keeps (outFilter side))
    (move : Side × Action) :
    Steps (link.endpoint move.1) link.links move.2
      ((link.endpoint move.1).step link.links move.2) ∧
    Joined channel inFilter outFilter (link.step move) := by
  have hsteps : Steps (link.endpoint move.1) link.links move.2
      ((link.endpoint move.1).step link.links move.2) := by
    apply steps
    · rw [h.outFilter]
      exact hout move.1
    · rw [h.inFilter]
      exact hin move.1
  have hsame : ∀ side, SameSetting (link.endpoint side).interface
      ((link.step move).endpoint side).interface := by
    intro side
    show SameSetting _ (Function.update link.endpoint move.1 _ side).interface
    by_cases hside : side = move.1
    · subst hside
      rw [Function.update_self]
      exact hsteps.same
    · rw [Function.update_of_ne hside]
      exact SameSetting.refl _
  refine ⟨hsteps, ?_, ?_, ?_, ?_⟩
  · exact fun side => (hsame side).1.trans (h.inChannel side)
  · exact fun side => (hsame side).2.1.trans (h.outChannel side)
  · exact fun side => (hsame side).2.2.1.trans (h.inFilter side)
  · exact fun side => (hsame side).2.2.2.trans (h.outFilter side)

theorem passing_append (sender : Side) (ads more : List Advertisement) :
    passing inFilter outFilter sender (ads ++ more) =
      passing inFilter outFilter sender ads ++ passing inFilter outFilter sender more := by
  unfold passing
  rw [List.filter_append, List.filter_append]

/-- A step of the sender adds at most what it pushes. -/
theorem custody_step_sender {link : Link} (h : Joined channel inFilter outFilter link)
    (hdistinct : ∀ side : Side, channel side ≠ channel side.other)
    (hin : ∀ side, Keeps (inFilter side)) (hout : ∀ side, Keeps (outFilter side))
    (sender : Side) (action : Action) :
    (custody channel inFilter outFilter sender (link.step (sender, action))).Sublist
      (custody channel inFilter outFilter sender link ++
        passing inFilter outFilter sender (pushed action)) := by
  obtain ⟨hsteps, -⟩ := h.step hin hout (sender, action)
  have hne : sender.other ≠ sender := by cases sender <;> simp [Side.other]
  have hend : (link.step (sender, action)).endpoint sender.other = link.endpoint sender.other :=
    Function.update_of_ne hne _ _
  have hend' : (link.step (sender, action)).endpoint sender =
      ((link.endpoint sender).step link.links action).2.1 := Function.update_self _ _ _
  have hreturned : (link.step (sender, action)).returned sender.other =
      link.returned sender.other := Function.update_of_ne hne _ _
  have hunread : (link.endpoint sender).interface.inChannel ≠ some (channel sender) := by
    rw [h.inChannel, Ne, Option.some.injEq]
    exact Ne.symm (hdistinct sender)
  have hsent := hsteps.sent (channel sender) (h.outChannel sender) hunread
  rw [h.outFilter, List.filter_append, ← List.append_assoc] at hsent
  have hfiltered := hsent.filter (fun ad => (inFilter sender.other ad).1)
  unfold custody passing
  rw [hend, hend', hreturned, List.append_assoc _ _ (List.filter _ (List.filter _ (pushed action))),
    ← List.filter_append]
  exact (List.Sublist.refl _).append hfiltered

/-- A step of the receiver adds nothing. -/
theorem custody_step_receiver {link : Link} (h : Joined channel inFilter outFilter link)
    (hdistinct : ∀ side : Side, channel side ≠ channel side.other)
    (hin : ∀ side, Keeps (inFilter side)) (hout : ∀ side, Keeps (outFilter side))
    (sender : Side) (action : Action) :
    (custody channel inFilter outFilter sender (link.step (sender.other, action))).Sublist
      (custody channel inFilter outFilter sender link) := by
  obtain ⟨hsteps, -⟩ := h.step hin hout (sender.other, action)
  have hne : sender ≠ sender.other := by cases sender <;> simp [Side.other]
  have hend : (link.step (sender.other, action)).endpoint sender = link.endpoint sender :=
    Function.update_of_ne hne _ _
  have hend' : (link.step (sender.other, action)).endpoint sender.other =
      ((link.endpoint sender.other).step link.links action).2.1 := Function.update_self _ _ _
  have hreturned : (link.step (sender.other, action)).returned sender.other =
      link.returned sender.other ++ ((link.endpoint sender.other).step link.links action).2.2 :=
    Function.update_self _ _ _
  have hread : (link.endpoint sender.other).interface.inChannel = some (channel sender) := by
    rw [h.inChannel, Side.other_other]
  have hunsent : (link.endpoint sender.other).interface.outChannel ≠ some (channel sender) := by
    rw [h.outChannel, Ne, Option.some.injEq]
    exact Ne.symm (hdistinct sender)
  have hreceived := hsteps.received (channel sender) hread hunsent
  rw [h.inFilter] at hreceived
  unfold custody
  rw [hend, hend', hreturned, List.filter_append, List.filter_append, ← List.append_assoc,
    ← List.append_assoc]
  refine List.Sublist.append ?_ (List.Sublist.refl _)
  rw [List.append_assoc (link.returned _), List.append_assoc (link.returned _),
    List.append_assoc (link.returned _)]
  exact (List.Sublist.refl _).append hreceived

theorem custody_step {link : Link} (h : Joined channel inFilter outFilter link)
    (hdistinct : ∀ side : Side, channel side ≠ channel side.other)
    (hin : ∀ side, Keeps (inFilter side)) (hout : ∀ side, Keeps (outFilter side))
    (sender : Side) (move : Side × Action) :
    (custody channel inFilter outFilter sender (link.step move)).Sublist
      (custody channel inFilter outFilter sender link ++
        passing inFilter outFilter sender (if move.1 = sender then pushed move.2 else [])) := by
  obtain ⟨side, action⟩ := move
  by_cases hside : side = sender
  · subst hside
    rw [if_pos rfl]
    exact custody_step_sender h hdistinct hin hout side action
  · have hother : side = sender.other := by
      cases side <;> cases sender <;> first | rfl | exact absurd rfl hside
    subst hother
    rw [if_neg hside]
    exact (custody_step_receiver h hdistinct hin hout sender action).trans
      (List.sublist_append_left _ _)

/-- Over a run, what is in custody comes from the start and from what was pushed, in order. -/
theorem custody_run {link : Link} (h : Joined channel inFilter outFilter link)
    (hdistinct : ∀ side : Side, channel side ≠ channel side.other)
    (hin : ∀ side, Keeps (inFilter side)) (hout : ∀ side, Keeps (outFilter side))
    (sender : Side) (moves : List (Side × Action)) :
    (custody channel inFilter outFilter sender (link.run moves)).Sublist
      (custody channel inFilter outFilter sender link ++
        passing inFilter outFilter sender (pushedAt sender moves)) := by
  induction moves generalizing link with
  | nil => exact List.sublist_append_left _ _
  | cons move rest ih =>
    obtain ⟨-, hnext⟩ := h.step hin hout move
    have hstep := custody_step h hdistinct hin hout sender move
    have hrest := ih hnext
    have hpushed : pushedAt sender (move :: rest) =
        (if move.1 = sender then pushed move.2 else []) ++ pushedAt sender rest := rfl
    rw [hpushed, passing_append, ← List.append_assoc]
    exact hrest.trans (hstep.append (List.Sublist.refl _))

end Custody

section Pairs
variable {forms : TextForms} {uuids : ℕ → Uuid} {network network' : NetworkManager}
  {supply supply' : Supply} {ip1 ip2 : IpAddr} {linkBufferSize : ℕ}
  {interface1 interface2 : Interface} {inFilter outFilter : Side → Interfaces.Filter Advertisement}

/-- The two interfaces with their filters. -/
def ends (interface1 interface2 : Interface)
    (inFilter outFilter : Side → Interfaces.Filter Advertisement)
    (side : Side) : Interface :=
  match side with
  | .first => (interface1.setInFilter (inFilter .first)).setOutFilter (outFilter .first)
  | .second => (interface2.setInFilter (inFilter .second)).setOutFilter (outFilter .second)

/-- A new pair is joined crosswise, and nothing is on its way. -/
theorem start_joined (hfresh : Fresh uuids network.threadManager.messageBus supply.drawn 4)
    (hpair : network.newInterfacePair forms uuids supply ip1 ip2 linkBufferSize =
      .ok (network', supply', interface1, interface2))
    (inFilter outFilter : Side → Interfaces.Filter Advertisement) :
    ∃ channel : Side → ChannelId, (∀ side : Side, channel side ≠ channel side.other) ∧
      Joined channel inFilter outFilter
        (Link.start supply'.links (ends interface1 interface2 inFilter outFilter)) ∧
      ∀ sender, custody channel inFilter outFilter sender
        (Link.start supply'.links (ends interface1 interface2 inFilter outFilter)) = [] := by
  obtain ⟨manager, supply'', first, second, hmade, ⟨id1, rfl⟩, ⟨id2, rfl⟩, hlinks, -⟩ :=
    @newInterfacePair_ok forms uuids network supply ip1 ip2 linkBufferSize hfresh
  rw [hpair] at hmade
  simp only [Except.ok.injEq, Prod.mk.injEq] at hmade
  obtain ⟨-, rfl, rfl, rfl⟩ := hmade
  let channel : Side → ℕ := fun side => match side with
    | .first => supply.nextChannel
    | .second => supply.nextChannel + 1
  have hempty : ∀ side, waiting supply'.links (channel side) = [] := by
    intro side
    rw [hlinks]
    have hne : supply.nextChannel ≠ supply.nextChannel + 1 := by omega
    cases side with
    | first => exact (waiting_update_of_ne _ _ hne).trans (waiting_create _ _ _)
    | second => exact waiting_create _ _ _
  refine ⟨channel, ?_, ⟨?_, ?_, ?_, ?_⟩, ?_⟩
  · intro side heq
    have hnum : (channel side : ℕ) = channel side.other := heq
    cases side <;> simp only [channel, Side.other] at hnum <;> omega
  · intro side
    cases side <;> rfl
  · intro side
    cases side <;> rfl
  · intro side
    cases side <;> rfl
  · intro side
    cases side <;> rfl
  · intro sender
    unfold custody
    show [] ++ _ ++ (waiting supply'.links (channel sender) ++ _).filter _ = []
    rw [hempty sender]
    cases sender <;> rfl

/-- What one end of a new pair gets is a sublist of what the other end pushed and both filters
let through, over any steps of the two ends. -/
theorem returned_sublist_pushed (forms : TextForms) (uuids : ℕ → Uuid) (network : NetworkManager)
    (supply : Supply) (ip1 ip2 : IpAddr) (linkBufferSize : ℕ)
    (hfresh : Fresh uuids network.threadManager.messageBus supply.drawn 4)
    (hpair : network.newInterfacePair forms uuids supply ip1 ip2 linkBufferSize =
      .ok (network', supply', interface1, interface2))
    (inFilter outFilter : Side → Interfaces.Filter Advertisement)
    (hin : ∀ side, Keeps (inFilter side))
    (hout : ∀ side, Keeps (outFilter side)) (moves : List (Side × Action)) (sender : Side) :
    (((Link.start supply'.links (ends interface1 interface2 inFilter outFilter)).run
        moves).returned sender.other).Sublist
      (passing inFilter outFilter sender (pushedAt sender moves)) := by
  obtain ⟨channel, hdistinct, hjoined, hnone⟩ := start_joined hfresh hpair inFilter outFilter
  have hrun := custody_run hjoined hdistinct hin hout sender moves
  rw [hnone, List.nil_append] at hrun
  unfold custody at hrun
  rw [List.append_assoc] at hrun
  exact (List.sublist_append_left _ _).trans hrun

/-- A filter that rejects what comes from one peer. -/
def rejecting (peer : String) : Interfaces.Filter Advertisement := fun ad => (ad.peer ≠ peer, ad)

/-- Four pushes of the first end, of which its filter rejects the second and the filter of the other
end the third. The second end receives while the first one is still sending, and once more. -/
def crossing : List (Side × Action) :=
  [(.first, .pushOutgoingAdvertisement (.sample "10.0.0.1" "10.0.0.1" [65001] true false)),
    (.first, .pushOutgoingAdvertisements [.sample "10.0.0.2" "10.0.0.2" [65002] true false,
      .sample "10.0.0.3" "10.0.0.3" [65003] true false,
      .sample "10.0.0.4" "10.0.0.4" [65004] false true]),
    (.first, .send), (.first, .proceed), (.second, .receive .acquired), (.second, .proceed),
    (.first, .proceed), (.first, .proceed), (.second, .proceed), (.second, .proceed),
    (.first, .proceed), (.first, .proceed), (.second, .receive .acquired), (.second, .proceed),
    (.second, .proceed), (.second, .getIncomingAdvertisements)]

theorem exists_crossing :
    ∃ network' supply' interface1 interface2,
      (NetworkManager.new ThreadManager.new Supply.initial).1.newInterfacePair TextForms.sample
        (fun n => BitVec.ofNat 128 n) Supply.initial (.V4 1) (.V4 2) 1 =
          .ok (network', supply', interface1, interface2) ∧
      ((Link.start supply'.links (ends interface1 interface2 (fun _ => rejecting "10.0.0.3")
          (fun _ => rejecting "10.0.0.2"))).run crossing).returned .second =
        [.sample "10.0.0.1" "10.0.0.1" [65001] true false,
          .sample "10.0.0.4" "10.0.0.4" [65004] false true] :=
  ⟨_, _, _, _, rfl, by decide +kernel⟩

theorem returned_sublist_pushed_crossing :
    ∃ network' supply' interface1 interface2,
      (NetworkManager.new ThreadManager.new Supply.initial).1.newInterfacePair TextForms.sample
        (fun n => BitVec.ofNat 128 n) Supply.initial (.V4 1) (.V4 2) 1 =
          .ok (network', supply', interface1, interface2) ∧
      ((Link.start supply'.links (ends interface1 interface2 (fun _ => rejecting "10.0.0.3")
          (fun _ => rejecting "10.0.0.2"))).run crossing).returned .second =
        [.sample "10.0.0.1" "10.0.0.1" [65001] true false,
          .sample "10.0.0.4" "10.0.0.4" [65004] false true] ∧
      (((Link.start supply'.links (ends interface1 interface2 (fun _ => rejecting "10.0.0.3")
          (fun _ => rejecting "10.0.0.2"))).run crossing).returned .second).Sublist
        (passing (fun _ => rejecting "10.0.0.3") (fun _ => rejecting "10.0.0.2") .first
          (pushedAt .first crossing)) := by
  have hfresh : Fresh (fun n => BitVec.ofNat 128 n)
      (NetworkManager.new ThreadManager.new Supply.initial).1.threadManager.messageBus
      Supply.initial.drawn 4 := fresh_ofNat (by decide)
  obtain ⟨network', supply', interface1, interface2, hpair, hreturned⟩ := exists_crossing
  have hkeeps : ∀ peer, Keeps (rejecting peer) := fun _ _ => rfl
  have hsublist := returned_sublist_pushed TextForms.sample _ _ _ (.V4 1) (.V4 2) 1 hfresh hpair
    (fun _ => rejecting "10.0.0.3") (fun _ => rejecting "10.0.0.2") (fun _ => hkeeps _)
    (fun _ => hkeeps _) crossing .first
  rw [show Side.first.other = .second from rfl] at hsublist
  exact ⟨network', supply', interface1, interface2, hpair, hreturned, hsublist⟩

end Pairs

end NetfabricBgp.LinkOrders
