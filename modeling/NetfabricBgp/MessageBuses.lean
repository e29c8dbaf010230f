import NetfabricBgp.Supplies

/-!
The message bus keeps the ends of channels by identifiers. The receiver of a channel is
handed out once, its sender any number of times. The thread manager makes a channel and
takes both of its ends; the lock it holds on the bus meanwhile is taken as not poisoned.
-/
namespace NetfabricBgp.MessageBuses

open RouterMasks Advertisements Channels Supplies

inductive MessageBusError
  | ChannelExists (id : Uuid)
  | ChannelNotFound (id : Uuid)
  | SendError
deriving DecidableEq

def MessageBusError.text (forms : TextForms) : MessageBusError → String
  | .ChannelExists id => "Channel with id " ++ forms.uuidToString id ++ " already exists"
  | .ChannelNotFound id => "Channel with id " ++ forms.uuidToString id ++ " not found"
  | .SendError => "Send error: sending on a closed channel"

structure MessageBus where
  senders : Finmap (fun _ : Uuid => ChannelId)
  receivers : Finmap (fun _ : Uuid => ChannelId)

/-- What is stored and taken back leaves no trace. -/
theorem erase_insert_of_notMem {map : Finmap (fun _ : Uuid => ChannelId)} {id : Uuid}
    (h : id ∉ map) (channel : ChannelId) : (map.insert id channel).erase id = map := by
  apply Finmap.ext_lookup
  intro other
  by_cases hother : other = id
  · subst hother
    rw [Finmap.lookup_erase, Finmap.lookup_eq_none.mpr h]
  · rw [Finmap.lookup_erase_ne hother, Finmap.lookup_insert_of_ne _ hother]

namespace MessageBus

def new : MessageBus := ⟨∅, ∅⟩

def channelExists (self : MessageBus) (id : Uuid) : Bool := id ∈ self.senders

def createChannelWithUuid (self : MessageBus) (supply : Supply) (bound : ℕ) (uuid : Uuid) :
    Except MessageBusError (MessageBus × Supply) :=
  if uuid ∈ self.senders ∨ uuid ∈ self.receivers then .error (.ChannelExists uuid)
  else
    let (channel, supply) := supply.syncChannel bound
    .ok ({ self with
      senders := self.senders.insert uuid channel
      receivers := self.receivers.insert uuid channel }, supply)

def subscribe (self : MessageBus) (id : Uuid) : Except MessageBusError (MessageBus × ChannelId) :=
  match self.receivers.lookup id with
  | some receiver => .ok ({ self with receivers := self.receivers.erase id }, receiver)
  | none => .error (.ChannelNotFound id)

def publish (self : MessageBus) (id : Uuid) : Except MessageBusError ChannelId :=
  match self.senders.lookup id with
  | some sender => .ok sender
  | none => .error (.ChannelNotFound id)

def createChannel (uuids : ℕ → Uuid) (self : MessageBus) (supply : Supply) (bound : ℕ) :
    Except MessageBusError (MessageBus × Supply × Uuid) :=
  let (uuid, supply) := supply.newV4 uuids
  match self.createChannelWithUuid supply bound uuid with
  | .error e => .error e
  | .ok (messageBus, supply) => .ok (messageBus, supply, uuid)

def stop (self : MessageBus) (id : Uuid) : MessageBus :=
  { self with
    senders := self.senders.erase id
    receivers := self.receivers.erase id }

instance : RightCommutative stop where
  right_comm := by
    intro bus id id'
    simp only [stop, Finmap.erase_erase]

/-- The identifiers of the senders are stopped one by one; their order makes no difference. -/
def stopAll (self : MessageBus) : MessageBus := self.senders.keys.val.foldl stop self

/-- Nothing on the bus is known by the identifier. -/
def Unused (self : MessageBus) (id : Uuid) : Prop := id ∉ self.senders ∧ id ∉ self.receivers

end MessageBus

/-- What `get_message_bus_channel_pair_with_id` does while it holds the bus: the bus it leaves,
at each of its returns, and the sender and the receiver. -/
def MessageBus.channelPairWithId (self : MessageBus) (supply : Supply) (channelCapacity : ℕ)
    (channelId : Uuid) : MessageBus × Supply × Except MessageBusError (ChannelId × ChannelId) :=
  let created :=
    if self.channelExists channelId then .ok (self, supply)
    else self.createChannelWithUuid supply channelCapacity channelId
  match created with
  | .error e => (self, supply, .error e)
  | .ok (created, supply) =>
    match created.subscribe channelId with
    | .error e => (created, supply, .error e)
    | .ok (subscribed, receiver) =>
      match subscribed.publish channelId with
      | .error e => (subscribed, supply, .error e)
      | .ok sender => (subscribed, supply, .ok (sender, receiver))

inductive ThreadManagerError
  | MessageBusError (text : String)
deriving DecidableEq

structure ThreadManager where
  messageBus : MessageBus

namespace ThreadManager

def new : ThreadManager := ⟨MessageBus.new⟩

variable (forms : TextForms)

/-- The sender and the receiver of the channel known by an identifier. -/
def getMessageBusChannelPairWithId (self : ThreadManager) (supply : Supply) (channelCapacity : ℕ)
    (channelId : Uuid) :
    Except ThreadManagerError (ThreadManager × Supply × ChannelId × ChannelId) :=
  let created :=
    if self.messageBus.channelExists channelId then .ok (self.messageBus, supply)
    else self.messageBus.createChannelWithUuid supply channelCapacity channelId
  match created with
  | .error e => .error (.MessageBusError (e.text forms))
  | .ok (messageBus, supply) =>
    match messageBus.subscribe channelId with
    | .error e => .error (.MessageBusError (e.text forms))
    | .ok (messageBus, receiver) =>
      match messageBus.publish channelId with
      | .error e => .error (.MessageBusError (e.text forms))
      | .ok sender => .ok ({ self with messageBus := messageBus }, supply, sender, receiver)

def getMessageBusChannelPair (uuids : ℕ → Uuid) (self : ThreadManager) (supply : Supply)
    (channelCapacity : ℕ) :
    Except ThreadManagerError (ThreadManager × Supply × ChannelId × ChannelId) :=
  let (id, supply) := supply.newV4 uuids
  self.getMessageBusChannelPairWithId forms supply channelCapacity id

variable {forms} {self : ThreadManager} {supply : Supply} {id : Uuid}

/-- The call is what it does on the bus, with the text of its error. -/
theorem getMessageBusChannelPairWithId_eq (channelCapacity : ℕ) :
    self.getMessageBusChannelPairWithId forms supply channelCapacity id =
      match self.messageBus.channelPairWithId supply channelCapacity id with
      | (_, _, .error e) => .error (.MessageBusError (e.text forms))
      | (messageBus, supply, .ok (sender, receiver)) =>
        .ok (⟨messageBus⟩, supply, sender, receiver) := by
  unfold getMessageBusChannelPairWithId MessageBus.channelPairWithId
  cases (if self.messageBus.channelExists id then Except.ok (self.messageBus, supply)
    else self.messageBus.createChannelWithUuid supply channelCapacity id) with
  | error e => rfl
  | ok created =>
    simp only
    rcases created.1.subscribe id with e | ⟨subscribed, receiver⟩
    · rfl
    · simp only
      cases subscribed.publish id <;> rfl

/-- An unused identifier gets a new channel, and both ends are ends of it. The bus keeps the
sender only. -/
theorem getMessageBusChannelPairWithId_of_unused (channelCapacity : ℕ)
    (h : self.messageBus.Unused id) :
    self.getMessageBusChannelPairWithId forms supply channelCapacity id =
      .ok (⟨{ self.messageBus with
          senders := self.messageBus.senders.insert id supply.nextChannel }⟩,
        (supply.syncChannel channelCapacity).2, supply.nextChannel, supply.nextChannel) := by
  obtain ⟨hsender, hreceiver⟩ := h
  have hback := erase_insert_of_notMem hreceiver supply.nextChannel
  simp [getMessageBusChannelPairWithId, MessageBus.channelExists, MessageBus.createChannelWithUuid,
    MessageBus.subscribe, MessageBus.publish, Supply.syncChannel, hsender, hreceiver, hback]

end ThreadManager

/-- The identifiers of a stretch of draws differ from each other and from those on the bus. -/
structure Fresh (uuids : ℕ → Uuid) (messageBus : MessageBus) (start count : ℕ) : Prop where
  distinct : ∀ m n, start ≤ m → m < n → n < start + count → uuids m ≠ uuids n
  unused : ∀ n, start ≤ n → n < start + count → messageBus.Unused (uuids n)

/-- Identifiers that count up are fresh on a new bus until they wrap around. -/
theorem fresh_ofNat {start count : ℕ} (h : start + count ≤ 2 ^ 128) :
    Fresh (fun n => BitVec.ofNat 128 n) MessageBus.new start count where
  distinct := by
    intro m n _ hlt hn heq
    have hnum : m % 2 ^ 128 = n % 2 ^ 128 := by
      rw [← BitVec.toNat_ofNat, ← BitVec.toNat_ofNat, heq]
    rw [Nat.mod_eq_of_lt (by omega), Nat.mod_eq_of_lt (by omega)] at hnum
    omega
  unused := fun _ _ _ => ⟨Finmap.notMem_empty, Finmap.notMem_empty⟩

end NetfabricBgp.MessageBuses
