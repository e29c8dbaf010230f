import NetfabricBgp.Channels

/-!
One end of a link: a buffer and a filter for each direction, between a session and the
channels. The loops of `receive` and `send` are recursions over the messages they take.
Each has one equation for a stretch whose accepted elements fit, and one for the element
that finds no room.
-/
namespace NetfabricBgp.Interfaces

open Addresses RouterMasks Advertisements BoundedQueues Channels

/-- The verdict on an element, and the element as the filter leaves it. -/
abbrev Filter (α : Type) := α → Bool × α

def NoFilter {α : Type} : Filter α := fun element => (true, element)

inductive InterfaceError
  | OutgoingBufferCapacityExceeded
  | IncomingBufferCapacityExceeded
  | ParserError (text : String)
  | MutexError (text : String)
deriving DecidableEq

def notAnAdvertisement : InterfaceError :=
  .ParserError "Received message is not an advertisement!"

def lockTimedOut : InterfaceError := .MutexError "Mutex error: \"WouldBlock\""

def INCOMING_ADVERTISEMENTS_CAPACITY : ℕ := 1000

def OUTGOING_ADVERTISEMENTS_CAPACITY : ℕ := 1000

structure Interface where
  id : Uuid
  ipAddress : IpAddr
  inChannel : Option ChannelId
  outChannel : Option ChannelId
  inFilter : Filter Advertisement
  outFilter : Filter Advertisement
  incomingAdvertisements : Bounded Advertisement
  outgoingAdvertisements : Bounded Advertisement
  bufferSizeIncoming : ℕ
  bufferSizeOutgoing : ℕ

/-- The loop of `receive` over the queued messages; those not taken are returned first. -/
def receiveLoop (inFilter : Filter Advertisement) (incoming : Bounded Advertisement) :
    List Message → List Message × Bounded Advertisement × Except InterfaceError Unit
  | [] => ([], incoming, .ok ())
  | message :: rest =>
    match message.cast with
    | none => (rest, incoming, .error notAnAdvertisement)
    | some ad =>
      let (keep, ad) := inFilter ad
      if keep then
        if h : incoming.items.length < incoming.capacity then
          receiveLoop inFilter (incoming.push ad h) rest
        else
          -- The message is off the channel already and finds the buffer full.
          (rest, incoming, .ok ())
      else receiveLoop inFilter incoming rest

theorem receiveLoop_suffix (inFilter : Filter Advertisement) (incoming : Bounded Advertisement)
    (queued : List Message) : (receiveLoop inFilter incoming queued).1 <:+ queued := by
  induction queued generalizing incoming with
  | nil => exact List.suffix_refl []
  | cons message rest ih =>
    have hrest := List.suffix_cons message rest
    unfold receiveLoop
    cases message.cast with
    | none => exact hrest
    | some ad =>
      by_cases hkeep : (inFilter ad).1 = true
      · by_cases hroom : incoming.items.length < incoming.capacity
        · simpa [hkeep, hroom] using (ih _).trans hrest
        · simp [hkeep, hroom]
      · simpa [hkeep] using (ih incoming).trans hrest

/-- The loop of `send` over the emptied buffer; it ends at the first failing `try_send`. -/
def sendLoop (outFilter : Filter Advertisement) (channel : Channel) :
    List Advertisement → Channel
  | [] => channel
  | ad :: rest =>
    let (keep, ad) := outFilter ad
    if keep then
      match channel.trySend (.advertisement ad) with
      | .ok channel => sendLoop outFilter channel rest
      | .error _ => channel
    else sendLoop outFilter channel rest

namespace Interface

def new (id : Uuid) (ipAddress : IpAddr) : Interface where
  id := id
  ipAddress := ipAddress
  inChannel := none
  outChannel := none
  inFilter := NoFilter
  outFilter := NoFilter
  incomingAdvertisements := .empty INCOMING_ADVERTISEMENTS_CAPACITY
  outgoingAdvertisements := .empty OUTGOING_ADVERTISEMENTS_CAPACITY
  bufferSizeIncoming := INCOMING_ADVERTISEMENTS_CAPACITY
  bufferSizeOutgoing := OUTGOING_ADVERTISEMENTS_CAPACITY

def setInChannel (self : Interface) (inChannel : ChannelId) : Interface :=
  { self with inChannel := some inChannel }

def setOutChannel (self : Interface) (outChannel : ChannelId) : Interface :=
  { self with outChannel := some outChannel }

def setInFilter (self : Interface) (inFilter : Filter Advertisement) : Interface :=
  { self with inFilter := inFilter }

def setOutFilter (self : Interface) (outFilter : Filter Advertisement) : Interface :=
  { self with outFilter := outFilter }

def setBufferSize (self : Interface) (incoming outgoing : ℕ) : Interface :=
  { self with bufferSizeIncoming := incoming, bufferSizeOutgoing := outgoing }

/-- The buffers are dropped and made anew in their new sizes. -/
def forceResize (self : Interface) : Interface :=
  { self with
    incomingAdvertisements := .empty self.bufferSizeIncoming
    outgoingAdvertisements := .empty self.bufferSizeOutgoing }

def receive (self : Interface) (lock : LockAttempt) (links : Links) :
    Links × Interface × Except InterfaceError Unit :=
  match self.inChannel with
  | none => (links, self, .ok ())
  | some id =>
    match lock with
    | .timedOut => (links, self, .error lockTimedOut)
    | .acquired =>
      let channel := links id
      let received := receiveLoop self.inFilter self.incomingAdvertisements channel.queue.items
      (Function.update links id
          { channel with
            queue := channel.queue.keepSuffix received.1 (receiveLoop_suffix _ _ _) },
        { self with incomingAdvertisements := received.2.1 }, received.2.2)

def send (self : Interface) (links : Links) : Links × Interface :=
  if self.outgoingAdvertisements.items = [] then (links, self)
  else
    match self.outChannel with
    | none => (links, self)
    | some id =>
      (Function.update links id
          (sendLoop self.outFilter (links id) self.outgoingAdvertisements.items),
        { self with outgoingAdvertisements := .empty self.bufferSizeOutgoing })

def getIncomingAdvertisements (self : Interface) : Interface × List Advertisement :=
  ({ self with incomingAdvertisements := .empty self.bufferSizeIncoming },
    self.incomingAdvertisements.items)

def pushOutgoingAdvertisement (self : Interface) (advertisement : Advertisement) :
    Interface × Except InterfaceError Unit :=
  if self.outChannel.isNone then (self, .ok ())
  else
    if h : self.outgoingAdvertisements.items.length < self.outgoingAdvertisements.capacity then
      ({ self with outgoingAdvertisements := self.outgoingAdvertisements.push advertisement h },
        .ok ())
    else (self, .error .OutgoingBufferCapacityExceeded)

/-- A list that does not fit is cut to the capacity that is left. -/
def pushOutgoingAdvertisements (self : Interface) (advertisements : List Advertisement) :
    Interface × Except InterfaceError Unit :=
  if advertisements.length = 0 then (self, .ok ())
  else if self.outChannel.isNone then (self, .ok ())
  else
    let capacityLeft := self.outgoingAdvertisements.room
    if h : advertisements.length ≤ capacityLeft then
      ({ self with
          outgoingAdvertisements := self.outgoingAdvertisements.extend advertisements h }, .ok ())
    else
      ({ self with
          outgoingAdvertisements := self.outgoingAdvertisements.extend
            (advertisements.take capacityLeft) (List.length_take_le capacityLeft advertisements) },
        .error .OutgoingBufferCapacityExceeded)

end Interface

section Receiving
variable {f : Filter Advertisement} {incoming : Bounded Advertisement}

/-- A stretch whose accepted elements fit is moved into the buffer. -/
theorem receiveLoop_append (taken : List Advertisement) (rest : List Message)
    (h : (accepted f taken).length ≤ incoming.room) :
    receiveLoop f incoming (taken.map .advertisement ++ rest) =
      receiveLoop f (incoming.extend (accepted f taken) h) rest := by
  induction taken generalizing incoming with
  | nil => exact congrArg (receiveLoop f · rest) (Bounded.extend_nil incoming h).symm
  | cons ad taken ih =>
    by_cases hkeep : (f ad).1 = true
    · have hcons : accepted f (ad :: taken) = (f ad).2 :: accepted f taken := by
        rw [accepted_cons, if_pos hkeep]
      have hlen : (accepted f taken).length + 1 ≤ incoming.room := by
        rw [hcons, List.length_cons] at h
        exact h
      have hpush : incoming.items.length < incoming.capacity := Bounded.room_pos.mp (by omega)
      have hroom := Bounded.room_push incoming (f ad).2 hpush
      have hrest := @ih (incoming.push (f ad).2 hpush) (by omega)
      rw [Bounded.extend_push incoming (f ad).2 (accepted f taken) hpush (by omega)
        (by rw [List.length_cons]; omega)] at hrest
      simp only [hcons, List.map_cons, List.cons_append, receiveLoop, Message.cast, hkeep, hpush,
        if_true, dif_pos]
      exact hrest
    · have hcons : accepted f (ad :: taken) = accepted f taken := by
        rw [accepted_cons, if_neg hkeep]
      simp only [hcons, List.map_cons, List.cons_append, receiveLoop, Message.cast, hkeep,
        Bool.false_eq_true, if_false]
      exact ih (by rwa [hcons] at h)

/-- The first accepted element that finds no room is dropped and ends the loop. -/
theorem receiveLoop_overflow (ad : Advertisement) (rest : List Message) (hkeep : (f ad).1 = true)
    (h : incoming.room = 0) :
    receiveLoop f incoming (.advertisement ad :: rest) = (rest, incoming, .ok ()) := by
  have hfull : ¬ incoming.items.length < incoming.capacity := by
    unfold Bounded.room at h
    omega
  simp [receiveLoop, Message.cast, hkeep, hfull]

end Receiving

section Sending
variable {f : Filter Advertisement} {channel : Channel}

/-- A stretch whose accepted elements fit is put on the channel. -/
theorem sendLoop_append (sent rest : List Advertisement)
    (h : (accepted f sent).length ≤ channel.room) :
    ∃ channel', sendLoop f channel (sent ++ rest) = sendLoop f channel' rest ∧
      channel'.room + (accepted f sent).length = channel.room ∧
      channel'.queue.items = channel.queue.items ++ (accepted f sent).map .advertisement := by
  induction sent generalizing channel with
  | nil => exact ⟨channel, rfl, rfl, by simp⟩
  | cons ad sent ih =>
    rw [accepted_cons] at h ⊢
    by_cases hkeep : (f ad).1 = true
    · rw [if_pos hkeep, List.length_cons] at h ⊢
      obtain ⟨next, hsend, hroom, hitems⟩ :=
        Channel.trySend_of_room (.advertisement (f ad).2) (show 0 < channel.room by omega)
      obtain ⟨channel', hloop, hroom', hitems'⟩ := @ih next (by omega)
      refine ⟨channel', ?_, by omega, ?_⟩
      · simpa [sendLoop, hkeep, hsend] using hloop
      · rw [hitems', hitems, List.map_cons, List.append_assoc]
        rfl
    · rw [if_neg hkeep] at h ⊢
      obtain ⟨channel', hloop, hroom, hitems⟩ := ih h
      exact ⟨channel', by simpa [sendLoop, hkeep] using hloop, hroom, hitems⟩

/-- The first accepted element that the channel refuses ends the loop. -/
theorem sendLoop_overflow (ad : Advertisement) (rest : List Advertisement)
    (hkeep : (f ad).1 = true) (h : channel.room = 0) :
    sendLoop f channel (ad :: rest) = channel := by
  obtain ⟨e, hsend⟩ := Channel.trySend_of_no_room (.advertisement (f ad).2) h
  simp [sendLoop, hkeep, hsend]

/-- The channel takes the accepted elements as far as its room goes. -/
theorem sendLoop_items (ads : List Advertisement) :
    (sendLoop f channel ads).queue.items =
      channel.queue.items ++ ((accepted f ads).take channel.room).map .advertisement := by
  by_cases hfit : (accepted f ads).length ≤ channel.room
  · obtain ⟨channel', hloop, -, hitems⟩ := sendLoop_append ads [] hfit
    rw [List.append_nil] at hloop
    rw [hloop, List.take_of_length_le hfit]
    exact hitems
  · obtain ⟨sent, ad, left, rfl, hlen, hkeep⟩ :=
      exists_first_overflow f (show channel.room < (accepted f ads).length by omega)
    obtain ⟨channel', hloop, hroom, hitems⟩ :=
      @sendLoop_append f channel sent (ad :: left) (by omega)
    rw [hloop, sendLoop_overflow ad left hkeep (by omega), hitems, accepted_append, ← hlen,
      List.take_left]

end Sending

section Pushing
variable {self : Interface}

theorem Interface.pushOutgoingAdvertisement_of_none (h : self.outChannel.isNone = true)
    (advertisement : Advertisement) :
    self.pushOutgoingAdvertisement advertisement = (self, .ok ()) := by
  rw [Interface.pushOutgoingAdvertisement, if_pos h]

theorem Interface.pushOutgoingAdvertisement_of_room (h : ¬ self.outChannel.isNone = true)
    (hroom : self.outgoingAdvertisements.items.length < self.outgoingAdvertisements.capacity)
    (advertisement : Advertisement) :
    self.pushOutgoingAdvertisement advertisement =
      ({ self with
          outgoingAdvertisements := self.outgoingAdvertisements.push advertisement hroom },
        .ok ()) := by
  rw [Interface.pushOutgoingAdvertisement, if_neg h, dif_pos hroom]

theorem Interface.pushOutgoingAdvertisement_of_full (h : ¬ self.outChannel.isNone = true)
    (hfull : self.outgoingAdvertisements.room = 0) (advertisement : Advertisement) :
    self.pushOutgoingAdvertisement advertisement =
      (self, .error .OutgoingBufferCapacityExceeded) := by
  have hno : ¬ self.outgoingAdvertisements.items.length <
      self.outgoingAdvertisements.capacity := by
    rw [← Bounded.room_pos]
    omega
  rw [Interface.pushOutgoingAdvertisement, if_neg h, dif_neg hno]

theorem Interface.pushOutgoingAdvertisements_of_none (h : self.outChannel.isNone = true)
    (ads : List Advertisement) : self.pushOutgoingAdvertisements ads = (self, .ok ()) := by
  rw [Interface.pushOutgoingAdvertisements, if_pos h, ite_self]

/-- As much of the list as there is room for enters the buffer. The answer tells whether
that was all of it. -/
theorem Interface.pushOutgoingAdvertisements_of_some (h : ¬ self.outChannel.isNone = true)
    (ads : List Advertisement) :
    self.pushOutgoingAdvertisements ads =
      ({ self with
          outgoingAdvertisements := self.outgoingAdvertisements.extend
            (ads.take self.outgoingAdvertisements.room)
            (List.length_take_le self.outgoingAdvertisements.room ads) },
        if ads.length ≤ self.outgoingAdvertisements.room then .ok ()
        else .error .OutgoingBufferCapacityExceeded) := by
  rw [Interface.pushOutgoingAdvertisements]
  by_cases hnil : ads.length = 0
  · obtain rfl := List.eq_nil_of_length_eq_zero hnil
    simp [Bounded.extend_nil]
  · rw [if_neg hnil, if_neg h]
    by_cases hfit : ads.length ≤ self.outgoingAdvertisements.room
    · simp only [hfit, dif_pos, if_true, List.take_of_length_le hfit]
    · simp only [hfit, dif_neg, if_false, not_false_eq_true]

end Pushing

/-!
An interface touches no channel but its own two.
-/
section Frames
variable {self : Interface} {links links' : Links} {other channel : ChannelId}

theorem Interface.send_of_ne (h : self.outChannel ≠ some other) :
    (self.send links).1 other = links other := by
  unfold Interface.send
  by_cases hnil : self.outgoingAdvertisements.items = []
  · simp [hnil]
  · cases hout : self.outChannel with
    | none => simp [hnil]
    | some id =>
      have hne : other ≠ id := by
        intro heq
        rw [heq] at h
        exact h hout
      simp [hnil, hne]

/-- With the lock taken, `receive` is its loop over the queue of the channel. -/
theorem Interface.receive_acquired (links : Links) (hin : self.inChannel = some channel) :
    ∃ links', self.receive .acquired links =
        (links',
          { self with
            incomingAdvertisements := (receiveLoop self.inFilter self.incomingAdvertisements
              (links channel).queue.items).2.1 },
          (receiveLoop self.inFilter self.incomingAdvertisements
            (links channel).queue.items).2.2) ∧
      (links' channel).queue.items = (receiveLoop self.inFilter self.incomingAdvertisements
        (links channel).queue.items).1 := by
  unfold Interface.receive
  simp only [hin]
  refine ⟨_, rfl, ?_⟩
  rw [Function.update_self]
  rfl

/-- What an interface receives depends on its own channel alone. -/
theorem Interface.receive_congr (lock : LockAttempt) (hin : self.inChannel = some channel)
    (h : links channel = links' channel) :
    (self.receive lock links).2 = (self.receive lock links').2 := by
  unfold Interface.receive
  rw [hin]
  cases lock with
  | timedOut => rfl
  | acquired => simp only [h]

/-- From an empty channel an interface receives nothing, and nothing changes. -/
theorem Interface.receive_of_empty (lock : LockAttempt)
    (h : ∀ id, self.inChannel = some id → (links id).queue.items = []) :
    ∃ result, self.receive lock links = (links, self, result) := by
  unfold Interface.receive
  cases hin : self.inChannel with
  | none => exact ⟨_, rfl⟩
  | some id =>
    cases lock with
    | timedOut => exact ⟨_, rfl⟩
    | acquired =>
      have hempty := h id hin
      have hsame : Function.update links id
          { links id with queue := (links id).queue.keepSuffix [] List.nil_suffix } = links := by
        rw [Function.update_eq_self_iff]
        simp [Bounded.keepSuffix, ← hempty]
      have heta : { self with inChannel := some id } = self := by rw [← hin]
      exact ⟨.ok (), by simp [hempty, receiveLoop, hsame, heta]⟩

theorem Interface.pushOutgoingAdvertisements_outChannel (ads : List Advertisement) :
    (self.pushOutgoingAdvertisements ads).1.outChannel = self.outChannel := by
  by_cases hnone : self.outChannel.isNone = true
  · rw [Interface.pushOutgoingAdvertisements_of_none hnone]
  · rw [Interface.pushOutgoingAdvertisements_of_some hnone]

end Frames

end NetfabricBgp.Interfaces
