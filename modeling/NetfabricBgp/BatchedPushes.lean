import NetfabricBgp.Runs
import NetfabricBgp.VectorInterfaces

/-!
Advertisements pushed as a batch or one by one. The batch is cut to the capacity that is left;
one by one, the first advertisement that finds no room ends the pushing. Both leave the same
interface and answer the same, after every history of the interface, and its vectors keep the
capacity they were created with.
-/
namespace NetfabricBgp.BatchedPushes

open Addresses RouterMasks Advertisements BoundedQueues GrowingVectors Channels Interfaces
  VectorInterfaces

/-- One operation on an interface. What the channels hold is up to the others at their ends. -/
inductive Event
  | setInChannel (inChannel : ChannelId)
  | setOutChannel (outChannel : ChannelId)
  | setInFilter (inFilter : Interfaces.Filter Advertisement)
  | setOutFilter (outFilter : Interfaces.Filter Advertisement)
  | setBufferSize (incoming outgoing : ℕ)
  | forceResize
  | receive (lock : LockAttempt) (links : Links)
  | send (links : Links)
  | getIncomingAdvertisements
  | pushOutgoingAdvertisement (advertisement : Advertisement)
  | pushOutgoingAdvertisements (advertisements : List Advertisement)

section Bounds

/-- The advertisements pushed one by one, up to the first error. -/
def pushEach (self : Interface) : List Advertisement → Interface × Except InterfaceError Unit
  | [] => (self, .ok ())
  | advertisement :: rest =>
    match self.pushOutgoingAdvertisement advertisement with
    | (self, .ok ()) => pushEach self rest
    | (self, .error e) => (self, .error e)

def apply (self : Interface) : Event → Interface
  | .setInChannel inChannel => self.setInChannel inChannel
  | .setOutChannel outChannel => self.setOutChannel outChannel
  | .setInFilter inFilter => self.setInFilter inFilter
  | .setOutFilter outFilter => self.setOutFilter outFilter
  | .setBufferSize incoming outgoing => self.setBufferSize incoming outgoing
  | .forceResize => self.forceResize
  | .receive lock links => (self.receive lock links).2.1
  | .send links => (self.send links).2
  | .getIncomingAdvertisements => self.getIncomingAdvertisements.1
  | .pushOutgoingAdvertisement advertisement => (self.pushOutgoingAdvertisement advertisement).1
  | .pushOutgoingAdvertisements advertisements =>
    (self.pushOutgoingAdvertisements advertisements).1

variable {self : Interface}

theorem pushEach_of_none (h : self.outChannel.isNone = true) (ads : List Advertisement) :
    pushEach self ads = (self, .ok ()) := by
  induction ads with
  | nil => rfl
  | cons ad rest ih =>
    rw [pushEach, Interface.pushOutgoingAdvertisement_of_none h]
    exact ih

/-- Pushed one by one, as many advertisements as there is room for enter the buffer, and the
answer tells whether that were all. The induction is on the advertisements, each of which
takes one from the room. -/
theorem pushEach_of_some (h : ¬ self.outChannel.isNone = true) (ads : List Advertisement) :
    pushEach self ads =
      ({ self with
          outgoingAdvertisements := self.outgoingAdvertisements.extend
            (ads.take self.outgoingAdvertisements.room)
            (List.length_take_le self.outgoingAdvertisements.room ads) },
        if ads.length ≤ self.outgoingAdvertisements.room then .ok ()
        else .error .OutgoingBufferCapacityExceeded) := by
  induction ads generalizing self with
  | nil => simp [pushEach, Bounded.extend_nil]
  | cons ad rest ih =>
    by_cases hroom : self.outgoingAdvertisements.items.length <
        self.outgoingAdvertisements.capacity
    · have hone := Bounded.room_push self.outgoingAdvertisements ad hroom
      have hall : rest.length ≤ (self.outgoingAdvertisements.push ad hroom).room ↔
          (ad :: rest).length ≤ self.outgoingAdvertisements.room := by
        rw [List.length_cons]
        omega
      have hrest := @ih { self with
        outgoingAdvertisements := self.outgoingAdvertisements.push ad hroom } h
      rw [pushEach, Interface.pushOutgoingAdvertisement_of_room h hroom]
      simp only [hrest, Bounded.extend_take_push, hall]
    · have hfull : self.outgoingAdvertisements.room = 0 := by
        rw [← Bounded.room_pos] at hroom
        omega
      rw [pushEach, Interface.pushOutgoingAdvertisement_of_full h hfull]
      simp [hfull, Bounded.extend_nil]

/-- A batch and its advertisements one by one lead to the same interface and answer. -/
theorem pushOutgoingAdvertisements_eq_pushEach (self : Interface) (ads : List Advertisement) :
    self.pushOutgoingAdvertisements ads = pushEach self ads := by
  by_cases hnone : self.outChannel.isNone = true
  · rw [pushEach_of_none hnone, Interface.pushOutgoingAdvertisements_of_none hnone]
  · rw [pushEach_of_some hnone, Interface.pushOutgoingAdvertisements_of_some hnone]

end Bounds

section Vectors
variable (growth : Growth)

/-- The advertisements pushed one by one to the vector, up to the first error. -/
def pushEachVec (self : VecInterface) :
    List Advertisement → VecInterface × Except InterfaceError Unit
  | [] => (self, .ok ())
  | advertisement :: rest =>
    match self.pushOutgoingAdvertisement growth advertisement with
    | (self, .ok ()) => pushEachVec self rest
    | (self, .error e) => (self, .error e)

def step (self : VecInterface) : Event → Except Overflow VecInterface
  | .setInChannel inChannel => .ok (self.setInChannel inChannel)
  | .setOutChannel outChannel => .ok (self.setOutChannel outChannel)
  | .setInFilter inFilter => .ok (self.setInFilter inFilter)
  | .setOutFilter outFilter => .ok (self.setOutFilter outFilter)
  | .setBufferSize incoming outgoing => .ok (self.setBufferSize incoming outgoing)
  | .forceResize => .ok self.forceResize
  | .receive lock links => .ok (self.receive growth lock links).2.1
  | .send links => .ok (self.send links).2
  | .getIncomingAdvertisements => .ok self.getIncomingAdvertisements.1
  | .pushOutgoingAdvertisement advertisement =>
    .ok (self.pushOutgoingAdvertisement growth advertisement).1
  | .pushOutgoingAdvertisements advertisements =>
    (self.pushOutgoingAdvertisements growth advertisements).map Prod.fst

/-- The interface after a history of operations. -/
def run (self : VecInterface) (events : List Event) : Except Overflow VecInterface :=
  Runs.run (step growth) self events

theorem pushEachVec_ofInterface (interface : Interface) (ads : List Advertisement) :
    pushEachVec growth (.ofInterface interface) ads =
      (.ofInterface (pushEach interface ads).1, (pushEach interface ads).2) := by
  induction ads generalizing interface with
  | nil => rfl
  | cons ad rest ih =>
    rw [pushEachVec, VecInterface.pushOutgoingAdvertisement_ofInterface, pushEach]
    rcases interface.pushOutgoingAdvertisement ad with ⟨next, _ | _⟩
    · rfl
    · exact ih next

/-- Interfaces whose vectors never grew step as interfaces with bounded buffers do. -/
theorem step_ofInterface (interface : Interface) (event : Event) :
    step growth (.ofInterface interface) event = .ok (.ofInterface (apply interface event)) := by
  cases event with
  | receive lock links => rw [step, VecInterface.receive_ofInterface, apply]
  | send links => rw [step, VecInterface.send_ofInterface, apply]
  | pushOutgoingAdvertisement ad =>
    rw [step, VecInterface.pushOutgoingAdvertisement_ofInterface, apply]
  | pushOutgoingAdvertisements ads =>
    rw [step, VecInterface.pushOutgoingAdvertisements_ofInterface, apply]
    rfl
  | _ => rfl

theorem run_ofInterface (interface : Interface) (events : List Event) :
    run growth (.ofInterface interface) events =
      .ok (.ofInterface (events.foldl apply interface)) :=
  Runs.run_image VecInterface.ofInterface apply (step_ofInterface growth) interface events

/-- What holds of the buffers of an interface, whatever is pushed to it next. -/
structure PushesAgree (self : VecInterface) : Prop where
  agree : ∀ ads, self.pushOutgoingAdvertisements growth ads = .ok (pushEachVec growth self ads)
  created : self.outgoingAdvertisements.capacity = self.outgoingAdvertisements.created
  bounded : self.outgoingAdvertisements.len ≤ self.outgoingAdvertisements.created
  left : ∃ left, self.outgoingAdvertisements.capacityLeft = .ok left ∧
    self.outgoingAdvertisements.len + left = self.outgoingAdvertisements.created

theorem pushesAgree_ofInterface (interface : Interface) :
    PushesAgree growth (.ofInterface interface) where
  agree := by
    intro ads
    rw [VecInterface.pushOutgoingAdvertisements_ofInterface, pushEachVec_ofInterface,
      pushOutgoingAdvertisements_eq_pushEach]
  created := rfl
  bounded := interface.outgoingAdvertisements.fits
  left := by
    have hfits := interface.outgoingAdvertisements.fits
    exact ⟨_, Vec.capacityLeft_ofBounded _, Nat.add_sub_cancel' hfits⟩

/-- After every history an interface is still there, no subtraction having overflowed, and a
batch pushed to it leads to the same interface and answer as its advertisements one by one. -/
theorem pushesAgree_run (id : Uuid) (ipAddress : IpAddr) (events : List Event) :
    ∃ interface, run growth (.new id ipAddress) events = .ok interface ∧
      PushesAgree growth interface := by
  have hrun := run_ofInterface growth (.new id ipAddress) events
  exact ⟨_, hrun, pushesAgree_ofInterface growth _⟩

example : ((run .doubling (.new 1 (.V4 1)) [.setBufferSize 5 5, .forceResize, .setOutChannel 0,
      .pushOutgoingAdvertisements (List.replicate 6 .new)]).map (fun interface =>
        (interface.outgoingAdvertisements.len, interface.outgoingAdvertisements.capacity))) =
    .ok (5, 5) := rfl

end Vectors

end NetfabricBgp.BatchedPushes
