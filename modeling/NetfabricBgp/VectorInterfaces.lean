import NetfabricBgp.GrowingVectors
import NetfabricBgp.Interfaces

/-!
The interface with its buffers as the vectors of the source, which would grow if they were
overfilled. Every operation checks the capacity before it adds to a buffer, so an interface
whose vectors never grew keeps them so, and behaves as the one with bounded buffers.
-/
namespace NetfabricBgp.VectorInterfaces

open Addresses RouterMasks Advertisements BoundedQueues GrowingVectors Channels Interfaces

structure VecInterface where
  id : Uuid
  ipAddress : IpAddr
  inChannel : Option ChannelId
  outChannel : Option ChannelId
  inFilter : Interfaces.Filter Advertisement
  outFilter : Interfaces.Filter Advertisement
  incomingAdvertisements : Vec Advertisement
  outgoingAdvertisements : Vec Advertisement
  bufferSizeIncoming : ℕ
  bufferSizeOutgoing : ℕ

section Receiving
variable (growth : Growth) (inFilter : Interfaces.Filter Advertisement)

def receiveLoop (incoming : Vec Advertisement) :
    List Message → List Message × Vec Advertisement × Except InterfaceError Unit
  | [] => ([], incoming, .ok ())
  | message :: rest =>
    match message.cast with
    | none => (rest, incoming, .error notAnAdvertisement)
    | some ad =>
      let (keep, ad) := inFilter ad
      if keep then
        if incoming.len < incoming.capacity then
          receiveLoop (incoming.push growth ad) rest
        else (rest, incoming, .ok ())
      else receiveLoop incoming rest

theorem receiveLoop_suffix (incoming : Vec Advertisement) (queued : List Message) :
    (receiveLoop growth inFilter incoming queued).1 <:+ queued := by
  induction queued generalizing incoming with
  | nil => exact List.suffix_refl []
  | cons message rest ih =>
    have hrest := List.suffix_cons message rest
    unfold receiveLoop
    cases message.cast with
    | none => exact hrest
    | some ad =>
      by_cases hkeep : (inFilter ad).1 = true
      · by_cases hroom : incoming.len < incoming.capacity
        · simpa [hkeep, hroom] using (ih _).trans hrest
        · simp [hkeep, hroom]
      · simpa [hkeep] using (ih incoming).trans hrest

/-- On a vector that never grew, the loop is the one over the bounded buffer. -/
theorem receiveLoop_ofBounded (incoming : Bounded Advertisement) (queued : List Message) :
    receiveLoop growth inFilter (.ofBounded incoming) queued =
      ((Interfaces.receiveLoop inFilter incoming queued).1,
        .ofBounded (Interfaces.receiveLoop inFilter incoming queued).2.1,
        (Interfaces.receiveLoop inFilter incoming queued).2.2) := by
  induction queued generalizing incoming with
  | nil => rfl
  | cons message rest ih =>
    unfold receiveLoop Interfaces.receiveLoop
    cases message.cast with
    | none => rfl
    | some ad =>
      by_cases hkeep : (inFilter ad).1 = true
      · by_cases hroom : incoming.items.length < incoming.capacity
        · have hlen : (Vec.ofBounded incoming).len < (Vec.ofBounded incoming).capacity := hroom
          simp only [hkeep, hroom, hlen, if_true, dif_pos]
          rw [Vec.push_ofBounded growth incoming _ hroom]
          exact ih _
        · have hlen : ¬ (Vec.ofBounded incoming).len < (Vec.ofBounded incoming).capacity := hroom
          simp [hkeep, hroom, hlen]
      · simpa [hkeep] using ih incoming

end Receiving

namespace VecInterface

def new (id : Uuid) (ipAddress : IpAddr) : VecInterface where
  id := id
  ipAddress := ipAddress
  inChannel := none
  outChannel := none
  inFilter := NoFilter
  outFilter := NoFilter
  incomingAdvertisements := .withCapacity INCOMING_ADVERTISEMENTS_CAPACITY
  outgoingAdvertisements := .withCapacity OUTGOING_ADVERTISEMENTS_CAPACITY
  bufferSizeIncoming := INCOMING_ADVERTISEMENTS_CAPACITY
  bufferSizeOutgoing := OUTGOING_ADVERTISEMENTS_CAPACITY

def setInChannel (self : VecInterface) (inChannel : ChannelId) : VecInterface :=
  { self with inChannel := some inChannel }

def setOutChannel (self : VecInterface) (outChannel : ChannelId) : VecInterface :=
  { self with outChannel := some outChannel }

def setInFilter (self : VecInterface) (inFilter : Interfaces.Filter Advertisement) :
    VecInterface :=
  { self with inFilter := inFilter }

def setOutFilter (self : VecInterface) (outFilter : Interfaces.Filter Advertisement) :
    VecInterface :=
  { self with outFilter := outFilter }

def setBufferSize (self : VecInterface) (incoming outgoing : ℕ) : VecInterface :=
  { self with bufferSizeIncoming := incoming, bufferSizeOutgoing := outgoing }

def forceResize (self : VecInterface) : VecInterface :=
  { self with
    incomingAdvertisements := .withCapacity self.bufferSizeIncoming
    outgoingAdvertisements := .withCapacity self.bufferSizeOutgoing }

def receive (growth : Growth) (self : VecInterface) (lock : LockAttempt) (links : Links) :
    Links × VecInterface × Except InterfaceError Unit :=
  match self.inChannel with
  | none => (links, self, .ok ())
  | some id =>
    match lock with
    | .timedOut => (links, self, .error lockTimedOut)
    | .acquired =>
      let channel := links id
      let received :=
        receiveLoop growth self.inFilter self.incomingAdvertisements channel.queue.items
      (Function.update links id
          { channel with
            queue := channel.queue.keepSuffix received.1 (receiveLoop_suffix _ _ _ _) },
        { self with incomingAdvertisements := received.2.1 }, received.2.2)

def send (self : VecInterface) (links : Links) : Links × VecInterface :=
  if self.outgoingAdvertisements.items = [] then (links, self)
  else
    match self.outChannel with
    | none => (links, self)
    | some id =>
      (Function.update links id
          (sendLoop self.outFilter (links id) self.outgoingAdvertisements.items),
        { self with outgoingAdvertisements := .withCapacity self.bufferSizeOutgoing })

def getIncomingAdvertisements (self : VecInterface) : VecInterface × List Advertisement :=
  ({ self with incomingAdvertisements := .withCapacity self.bufferSizeIncoming },
    self.incomingAdvertisements.items)

def pushOutgoingAdvertisement (growth : Growth) (self : VecInterface)
    (advertisement : Advertisement) : VecInterface × Except InterfaceError Unit :=
  if self.outChannel.isNone then (self, .ok ())
  else if self.outgoingAdvertisements.len < self.outgoingAdvertisements.capacity then
    ({ self with
        outgoingAdvertisements := self.outgoingAdvertisements.push growth advertisement },
      .ok ())
  else (self, .error .OutgoingBufferCapacityExceeded)

/-- The panic is that of the subtraction of the length from the capacity. -/
def pushOutgoingAdvertisements (growth : Growth) (self : VecInterface)
    (advertisements : List Advertisement) :
    Except Overflow (VecInterface × Except InterfaceError Unit) :=
  if advertisements.length = 0 then .ok (self, .ok ())
  else if self.outChannel.isNone then .ok (self, .ok ())
  else
    match self.outgoingAdvertisements.capacityLeft with
    | .error overflow => .error overflow
    | .ok capacityLeft =>
      if advertisements.length > capacityLeft then
        .ok ({ self with
            outgoingAdvertisements :=
              self.outgoingAdvertisements.extend growth (advertisements.take capacityLeft) },
          .error .OutgoingBufferCapacityExceeded)
      else
        .ok ({ self with
            outgoingAdvertisements := self.outgoingAdvertisements.extend growth advertisements },
          .ok ())

/-- The interface with vectors that never grew. -/
def ofInterface (interface : Interface) : VecInterface where
  id := interface.id
  ipAddress := interface.ipAddress
  inChannel := interface.inChannel
  outChannel := interface.outChannel
  inFilter := interface.inFilter
  outFilter := interface.outFilter
  incomingAdvertisements := .ofBounded interface.incomingAdvertisements
  outgoingAdvertisements := .ofBounded interface.outgoingAdvertisements
  bufferSizeIncoming := interface.bufferSizeIncoming
  bufferSizeOutgoing := interface.bufferSizeOutgoing

section OfInterface
variable (growth : Growth) (interface : Interface)

theorem receive_ofInterface (lock : LockAttempt) (links : Links) :
    (ofInterface interface).receive growth lock links =
      ((interface.receive lock links).1, ofInterface (interface.receive lock links).2.1,
        (interface.receive lock links).2.2) := by
  unfold receive Interface.receive
  simp only [ofInterface, receiveLoop_ofBounded]
  cases hin : interface.inChannel with
  | none => simp only [hin]
  | some id => cases lock <;> simp [hin, Vec.ofBounded]

theorem send_ofInterface (links : Links) :
    (ofInterface interface).send links =
      ((interface.send links).1, ofInterface (interface.send links).2) := by
  unfold send Interface.send
  simp only [ofInterface, Vec.ofBounded]
  by_cases hnil : interface.outgoingAdvertisements.items = []
  · simp [hnil]
  · cases hout : interface.outChannel with
    | none => simp [hnil, hout]
    | some id => simp [hnil, Vec.withCapacity, Bounded.empty]

theorem pushOutgoingAdvertisement_ofInterface (ad : Advertisement) :
    (ofInterface interface).pushOutgoingAdvertisement growth ad =
      (ofInterface (interface.pushOutgoingAdvertisement ad).1,
        (interface.pushOutgoingAdvertisement ad).2) := by
  unfold pushOutgoingAdvertisement
  by_cases hnone : interface.outChannel.isNone = true
  · rw [Interface.pushOutgoingAdvertisement_of_none hnone]
    simp [ofInterface, hnone]
  · rcases Nat.eq_zero_or_pos interface.outgoingAdvertisements.room with hfull | hpos
    · have hlen : ¬ (Vec.ofBounded interface.outgoingAdvertisements).len <
          (Vec.ofBounded interface.outgoingAdvertisements).capacity := by
        intro hlt
        have hpos := Bounded.room_pos.mpr hlt
        omega
      rw [Interface.pushOutgoingAdvertisement_of_full hnone hfull]
      simp [ofInterface, hnone, hlen]
    · have hroom := Bounded.room_pos.mp hpos
      have hpush := Vec.push_ofBounded growth interface.outgoingAdvertisements ad hroom
      have hlen : (Vec.ofBounded interface.outgoingAdvertisements).len <
          (Vec.ofBounded interface.outgoingAdvertisements).capacity := hroom
      rw [Interface.pushOutgoingAdvertisement_of_room hnone hroom]
      simp only [ofInterface, hnone, hlen, hpush, Bool.false_eq_true, if_false, if_true]

theorem pushOutgoingAdvertisements_ofInterface (ads : List Advertisement) :
    (ofInterface interface).pushOutgoingAdvertisements growth ads =
      .ok (ofInterface (interface.pushOutgoingAdvertisements ads).1,
        (interface.pushOutgoingAdvertisements ads).2) := by
  unfold pushOutgoingAdvertisements
  by_cases hnone : interface.outChannel.isNone = true
  · rw [Interface.pushOutgoingAdvertisements_of_none hnone]
    simp [ofInterface, hnone]
  · have hleft := Vec.capacityLeft_ofBounded interface.outgoingAdvertisements
    have hextend := Vec.extend_ofBounded growth interface.outgoingAdvertisements
      (ads.take interface.outgoingAdvertisements.room) (List.length_take_le _ ads)
    rw [Interface.pushOutgoingAdvertisements_of_some hnone]
    by_cases hnil : ads.length = 0
    · obtain rfl := List.eq_nil_of_length_eq_zero hnil
      simp [Bounded.extend_nil]
    · by_cases hfit : ads.length ≤ interface.outgoingAdvertisements.room
      · have hover : ¬ ads.length > interface.outgoingAdvertisements.room := by omega
        simp only [List.take_of_length_le hfit] at hextend
        simp only [ofInterface, hnil, hnone, hleft, hfit, hover, hextend,
          List.take_of_length_le hfit, Bool.false_eq_true, if_false, if_true]
      · have hover : ads.length > interface.outgoingAdvertisements.room := by omega
        simp only [ofInterface, hnil, hnone, hleft, hfit, hover, hextend,
          Bool.false_eq_true, if_false, if_true]

end OfInterface

end VecInterface

end NetfabricBgp.VectorInterfaces
