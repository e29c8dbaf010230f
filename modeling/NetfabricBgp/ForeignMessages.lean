import NetfabricBgp.Sessions

/-!
A channel that carries messages of other types among the advertisements. A foreign message
ends the loop of `receive` with an error, and the session returns it without emptying its
buffer, so what was accepted before stays there for a later call. Each error takes one
foreign message off the channel, and the first call that meets none delivers everything.
-/
namespace NetfabricBgp.ForeignMessages

open Addresses Advertisements BoundedQueues Channels Interfaces Sessions

/-- The advertisements among the messages, in their order. -/
def advertisementsOf (messages : List Message) : List Advertisement :=
  messages.filterMap Message.cast

/-- The number of messages that are no advertisements. -/
def foreignCount (messages : List Message) : ℕ := messages.countP (·.cast.isNone)

/-- The answers of a session that is asked to receive again and again, with nothing sent
meanwhile; every call makes its own attempt to lock the channel. -/
def receiveAll (session : BgpSession) (links : Links) :
    List LockAttempt → List (Except BgpSessionError (List Advertisement))
  | [] => []
  | lock :: rest =>
    let (links, session, result) := session.receive lock links
    result :: receiveAll session links rest

/-- One error for every foreign message, then the advertisements in one delivery, and nothing
after it; a call that does not get the lock answers so and changes nothing. -/
def answers (ads : List Advertisement) :
    ℕ → List LockAttempt → List (Except BgpSessionError (List Advertisement))
  | _, [] => []
  | foreign, .timedOut :: rest =>
    .error (.InterfaceError lockTimedOut) :: answers ads foreign rest
  | foreign + 1, .acquired :: rest =>
    .error (.InterfaceError notAnAdvertisement) :: answers ads foreign rest
  | 0, .acquired :: rest => .ok ads :: answers [] 0 rest

/-- An interface with messages on its channel and advertisements in its buffer, which has room
for all accepted ones that are still to come. -/
structure Waiting (interface : Interface) (links : Links) (channel : ChannelId)
    (messages : List Message) (kept : List Advertisement) : Prop where
  inChannel : interface.inChannel = some channel
  queue : (links channel).queue.items = messages
  kept : interface.incomingAdvertisements.items = kept
  room : (accepted interface.inFilter (advertisementsOf messages)).length ≤
    interface.incomingAdvertisements.room

section Messages

theorem advertisementsOf_append (ads : List Advertisement) (rest : List Message) :
    advertisementsOf (ads.map .advertisement ++ rest) = ads ++ advertisementsOf rest := by
  induction ads with
  | nil => rfl
  | cons ad ads ih => exact congrArg (List.cons ad) ih

theorem foreignCount_append (ads : List Advertisement) (rest : List Message) :
    foreignCount (ads.map .advertisement ++ rest) = foreignCount rest := by
  induction ads with
  | nil => rfl
  | cons ad ads ih =>
    rw [List.map_cons, List.cons_append, foreignCount, List.countP_cons]
    exact ih

/-- All messages are advertisements, or a foreign one comes behind some advertisements. -/
theorem split_at_foreign (messages : List Message) :
    (∃ ads : List Advertisement, messages = ads.map .advertisement) ∨
      ∃ (ads : List Advertisement) (type : String) (rest : List Message),
        messages = ads.map .advertisement ++ .foreign type :: rest := by
  induction messages with
  | nil => exact Or.inl ⟨[], rfl⟩
  | cons message messages ih =>
    cases message with
    | foreign type => exact Or.inr ⟨[], type, messages, rfl⟩
    | advertisement ad =>
      rcases ih with ⟨ads, rfl⟩ | ⟨ads, type, rest, rfl⟩
      · exact Or.inl ⟨ad :: ads, rfl⟩
      · exact Or.inr ⟨ad :: ads, type, rest, rfl⟩

end Messages

section Calls
variable {interface : Interface} {links : Links} {channel : ChannelId}
  {ads kept : List Advertisement} {rest : List Message}

/-- The advertisements in front of a foreign message move into the buffer, and stay there. -/
theorem receive_foreign {type : String}
    (h : Waiting interface links channel (ads.map .advertisement ++ .foreign type :: rest) kept) :
    ∃ links' interface',
      interface.receive .acquired links = (links', interface', .error notAnAdvertisement) ∧
      interface'.inFilter = interface.inFilter ∧
      Waiting interface' links' channel rest (kept ++ accepted interface.inFilter ads) := by
  obtain ⟨links', hreceive, hqueue⟩ := Interface.receive_acquired links h.inChannel
  have hroom := h.room
  have hrest : advertisementsOf (.foreign type :: rest) = advertisementsOf rest := rfl
  rw [advertisementsOf_append, accepted_append, List.length_append, hrest] at hroom
  have hads : (accepted interface.inFilter ads).length ≤
      interface.incomingAdvertisements.room := by omega
  have hloop := receiveLoop_append ads (.foreign type :: rest) hads
  rw [← h.queue] at hloop
  have hextend := Bounded.room_extend interface.incomingAdvertisements _ hads
  rw [hloop] at hreceive hqueue
  refine ⟨links', _, hreceive, rfl, h.inChannel, hqueue, ?_, ?_⟩
  · exact congrArg (· ++ accepted interface.inFilter ads) h.kept
  · show (accepted interface.inFilter (advertisementsOf rest)).length ≤
      (interface.incomingAdvertisements.extend _ hads).room
    omega

/-- Without a foreign message the channel is emptied. -/
theorem receive_clean (h : Waiting interface links channel (ads.map .advertisement) kept) :
    ∃ links' interface',
      interface.receive .acquired links = (links', interface', .ok ()) ∧
      interface'.inFilter = interface.inFilter ∧
      Waiting interface' links' channel [] (kept ++ accepted interface.inFilter ads) := by
  obtain ⟨links', hreceive, hqueue⟩ := Interface.receive_acquired links h.inChannel
  have hroom := h.room
  rw [← List.append_nil (ads.map Message.advertisement), advertisementsOf_append,
    accepted_append, List.length_append] at hroom
  have hads : (accepted interface.inFilter ads).length ≤
      interface.incomingAdvertisements.room := by omega
  have hloop := receiveLoop_append ads [] hads
  rw [List.append_nil, ← h.queue] at hloop
  rw [hloop] at hreceive hqueue
  refine ⟨links', _, hreceive, rfl, h.inChannel, hqueue, ?_, Nat.zero_le _⟩
  exact congrArg (· ++ accepted interface.inFilter ads) h.kept

end Calls

/-- The answers of a run, from whatever is on the channel and in the buffer. The induction is
on the calls: each one meets the first foreign message, or empties channel and buffer. -/
theorem receiveAll_of_waiting {interface : Interface} {links : Links} {channel : ChannelId}
    {messages : List Message} {kept : List Advertisement} (session : BgpSession)
    (h : Waiting interface links channel messages kept) (locks : List LockAttempt) :
    receiveAll { session with interface := some interface } links locks =
      answers (kept ++ accepted interface.inFilter (advertisementsOf messages))
        (foreignCount messages) locks := by
  induction locks generalizing interface links messages kept with
  | nil => cases foreignCount messages <;> rfl
  | cons lock locks ih =>
    cases lock with
    | timedOut =>
      have hreceive : interface.receive .timedOut links =
          (links, interface, .error lockTimedOut) := by
        rw [Interface.receive, h.inChannel]
      simp only [receiveAll, BgpSession.receive, hreceive, ih h]
      cases foreignCount messages <;> rfl
    | acquired =>
      rcases split_at_foreign messages with ⟨ads, rfl⟩ | ⟨ads, type, rest, rfl⟩
      · obtain ⟨links', interface', hreceive, hfilter, hwaiting⟩ := receive_clean h
        have hempty : Waiting
            { interface' with
              incomingAdvertisements := .empty interface'.bufferSizeIncoming }
            links' channel [] [] := ⟨hwaiting.inChannel, hwaiting.queue, rfl, Nat.zero_le _⟩
        have hads := advertisementsOf_append ads []
        have hcount := foreignCount_append ads []
        rw [List.append_nil] at hads hcount
        simp only [receiveAll, BgpSession.receive, hreceive, Interface.getIncomingAdvertisements,
          ih hempty, hwaiting.kept, hads, hcount]
        simp [answers, foreignCount, advertisementsOf]
      · obtain ⟨links', interface', hreceive, hfilter, hwaiting⟩ := receive_foreign h
        have hads := advertisementsOf_append ads (.foreign type :: rest)
        have hcount := foreignCount_append ads (.foreign type :: rest)
        have hrest : advertisementsOf (.foreign type :: rest) = advertisementsOf rest := rfl
        have hone : foreignCount (.foreign type :: rest) = foreignCount rest + 1 := by
          simp [foreignCount, Message.cast]
        simp only [receiveAll, BgpSession.receive, hreceive, ih hwaiting, hads, hcount, hrest,
          hone, hfilter, accepted_append, List.append_assoc, answers]

/-- With every lock taken, the errors come first and the delivery is the last answer. -/
theorem answers_replicate (ads : List Advertisement) (foreign : ℕ) :
    answers ads foreign (List.replicate (foreign + 1) .acquired) =
      List.replicate foreign (.error (.InterfaceError notAnAdvertisement)) ++ [.ok ads] := by
  induction foreign with
  | zero => rfl
  | succ foreign ih => exact congrArg _ ih

/-- From an empty buffer with the capacity for all accepted advertisements on the channel, a
session answers with one error for each foreign message and then delivers exactly the accepted
advertisements, in order, however the foreign messages are spread among them. -/
theorem receiveAll_delivers {session : BgpSession} {interface : Interface} {links : Links}
    {channel : ChannelId} (hsession : session.interface = some interface)
    (hin : interface.inChannel = some channel)
    (hempty : interface.incomingAdvertisements.items = [])
    (hcapacity : (accepted interface.inFilter
        (advertisementsOf (links channel).queue.items)).length ≤
      interface.incomingAdvertisements.capacity) :
    (∀ locks, receiveAll session links locks =
      answers (accepted interface.inFilter (advertisementsOf (links channel).queue.items))
        (foreignCount (links channel).queue.items) locks) ∧
    receiveAll session links
        (List.replicate (foreignCount (links channel).queue.items + 1) .acquired) =
      List.replicate (foreignCount (links channel).queue.items)
          (.error (.InterfaceError notAnAdvertisement)) ++
        [.ok (accepted interface.inFilter
          (advertisementsOf (links channel).queue.items))] := by
  have hwaiting : Waiting interface links channel (links channel).queue.items [] := by
    refine ⟨hin, rfl, hempty, ?_⟩
    rw [Bounded.room, hempty, List.length_nil]
    omega
  have hself : { session with interface := some interface } = session := by rw [← hsession]
  have hall := receiveAll_of_waiting session hwaiting
  rw [hself] at hall
  refine ⟨hall, ?_⟩
  rw [hall, answers_replicate]
  rfl

/-- Two advertisements on every channel, with a foreign message before and between them. -/
def mixedLinks : Links := fun _ =>
  ⟨⟨[.foreign "RisLiveMessage", .advertisement { Advertisement.new with host := "first" },
    .foreign "RisLiveMessage", .advertisement { Advertisement.new with host := "second" }], 4,
      by decide⟩, true⟩

def openSession : BgpSession :=
  (BgpSession.new 1).withInterface ((Interface.new 1 (.V4 1)).setInChannel 0)

theorem receiveAll_delivers_mixed :
    receiveAll openSession mixedLinks [.acquired, .acquired, .acquired] =
      [.error (.InterfaceError notAnAdvertisement), .error (.InterfaceError notAnAdvertisement),
        .ok [{ Advertisement.new with host := "first" },
          { Advertisement.new with host := "second" }]] :=
  (@receiveAll_delivers openSession ((Interface.new 1 (.V4 1)).setInChannel 0) mixedLinks 0 rfl
    rfl rfl (by decide)).2

end NetfabricBgp.ForeignMessages
