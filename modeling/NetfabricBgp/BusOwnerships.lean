import NetfabricBgp.Loops
import NetfabricBgp.MessageBuses

/-!
The message bus over any sequence of its operations. An identifier with a receiver has the
sender of the same channel, so taking the receiver and then the sender succeeds as a whole
or changes nothing, and stopping all senders stops all receivers.
-/
namespace NetfabricBgp.BusOwnerships

open RouterMasks Channels Supplies MessageBuses

inductive Op
  | createChannel (bound : ℕ)
  | createChannelWithUuid (bound : ℕ) (uuid : Uuid)
  | subscribe (id : Uuid)
  | publish (id : Uuid)
  | stop (id : Uuid)
  | stopAll
  | channelPairWithId (channelCapacity : ℕ) (channelId : Uuid)

inductive Outcome
  | failed (error : MessageBusError)
  | created (id : Uuid)
  | receiver (channel : ChannelId)
  | sender (channel : ChannelId)
  | pair (sender receiver : ChannelId)
  | stopped

/-- The channel whose receiver leaves the bus. -/
def Outcome.handedOut : Outcome → Option ChannelId
  | .receiver channel => some channel
  | .pair _ channel => some channel
  | _ => none

abbrev State := MessageBus × Supply

/-- One operation on the bus. A failed creation has drawn its identifier all the same. -/
def step (uuids : ℕ → Uuid) (state : State) : Op → State × Outcome
  | .createChannel bound =>
    match state.1.createChannel uuids state.2 bound with
    | .ok (bus, supply, id) => ((bus, supply), .created id)
    | .error e => ((state.1, (state.2.newV4 uuids).2), .failed e)
  | .createChannelWithUuid bound uuid =>
    match state.1.createChannelWithUuid state.2 bound uuid with
    | .ok (bus, supply) => ((bus, supply), .created uuid)
    | .error e => (state, .failed e)
  | .subscribe id =>
    match state.1.subscribe id with
    | .ok (bus, channel) => ((bus, state.2), .receiver channel)
    | .error e => (state, .failed e)
  | .publish id =>
    match state.1.publish id with
    | .ok channel => (state, .sender channel)
    | .error e => (state, .failed e)
  | .stop id => ((state.1.stop id, state.2), .stopped)
  | .stopAll => ((state.1.stopAll, state.2), .stopped)
  | .channelPairWithId channelCapacity channelId =>
    match state.1.channelPairWithId state.2 channelCapacity channelId with
    | (bus, supply, .ok (sender, receiver)) => ((bus, supply), .pair sender receiver)
    | (bus, supply, .error e) => ((bus, supply), .failed e)

def run (uuids : ℕ → Uuid) (state : State) (ops : List Op) : State × List Outcome :=
  Loops.loop (fun _ => false) (step uuids) state ops

/-- The receivers that have left the bus, in the order in which they were handed out. -/
def handedOut (log : List Outcome) : List ChannelId := log.filterMap Outcome.handedOut

/-- Receivers have their senders, channels have one identifier, and the receivers that are
out are not on the bus. -/
structure Owned (state : State) (handed : List ChannelId) : Prop where
  paired : ∀ id channel, state.1.receivers.lookup id = some channel →
    state.1.senders.lookup id = some channel
  made : ∀ id channel, state.1.senders.lookup id = some channel → channel < state.2.nextChannel
  distinct : ∀ id id' channel, state.1.senders.lookup id = some channel →
    state.1.senders.lookup id' = some channel → id = id'
  handedMade : ∀ channel ∈ handed, channel < state.2.nextChannel
  handedGone : ∀ channel ∈ handed, ∀ id, state.1.receivers.lookup id ≠ some channel
  once : handed.Nodup

section Operations
variable {bus bus' : MessageBus} {supply supply' : Supply} {handed : List ChannelId} {id : Uuid}
  {channel : ChannelId}

theorem owned_new (supply : Supply) : Owned (MessageBus.new, supply) [] := by
  constructor <;> simp [MessageBus.new]

/-- A creation is refused only for an identifier in use, and makes a new channel otherwise. -/
theorem createChannelWithUuid_cases (bus : MessageBus) (supply : Supply) (bound : ℕ) (id : Uuid) :
    (¬ bus.Unused id ∧
      bus.createChannelWithUuid supply bound id = .error (.ChannelExists id)) ∨
    (bus.Unused id ∧ bus.createChannelWithUuid supply bound id =
      .ok (⟨bus.senders.insert id supply.nextChannel, bus.receivers.insert id supply.nextChannel⟩,
        (supply.syncChannel bound).2)) := by
  by_cases h : id ∈ bus.senders ∨ id ∈ bus.receivers
  · refine Or.inl ⟨?_, by rw [MessageBus.createChannelWithUuid, if_pos h]⟩
    rintro ⟨hsender, hreceiver⟩
    exact h.elim hsender hreceiver
  · exact Or.inr ⟨not_or.mp h, by rw [MessageBus.createChannelWithUuid, if_neg h]; rfl⟩

/-- A new channel: nothing on the bus or handed out so far is one of its ends. -/
theorem Owned.create (h : Owned (bus, supply) handed) (hunused : bus.Unused id) (bound : ℕ) :
    Owned (⟨bus.senders.insert id supply.nextChannel, bus.receivers.insert id supply.nextChannel⟩,
      (supply.syncChannel bound).2) handed where
  paired := by
    intro other value hvalue
    rcases lookup_insert_some hvalue with ⟨rfl, rfl⟩ | ⟨hne, hold⟩
    · exact Finmap.lookup_insert _
    · exact (Finmap.lookup_insert_of_ne _ hne).trans (h.paired other value hold)
  made := by
    intro other value hvalue
    rcases lookup_insert_some hvalue with ⟨-, rfl⟩ | ⟨-, hold⟩
    · exact Nat.lt_succ_self _
    · exact Nat.lt_succ_of_lt (h.made other value hold)
  distinct := by
    intro other other' value hvalue hvalue'
    rcases lookup_insert_some hvalue with ⟨rfl, rfl⟩ | ⟨-, hold⟩
    · rcases lookup_insert_some hvalue' with ⟨rfl, -⟩ | ⟨-, hold'⟩
      · rfl
      · exact absurd (h.made other' _ hold') (Nat.lt_irrefl _)
    · rcases lookup_insert_some hvalue' with ⟨rfl, rfl⟩ | ⟨-, hold'⟩
      · exact absurd (h.made other _ hold) (Nat.lt_irrefl _)
      · exact h.distinct other other' value hold hold'
  handedMade := fun value hvalue => Nat.lt_succ_of_lt (h.handedMade value hvalue)
  handedGone := by
    intro value hvalue other hother
    rcases lookup_insert_some hother with ⟨-, rfl⟩ | ⟨-, hold⟩
    · exact absurd (h.handedMade _ hvalue) (Nat.lt_irrefl _)
    · exact h.handedGone value hvalue other hold
  once := h.once

/-- The receiver of an identifier leaves the bus for the first time. -/
theorem Owned.subscribe (h : Owned (bus, supply) handed)
    (hreceiver : bus.receivers.lookup id = some channel) :
    Owned ({ bus with receivers := bus.receivers.erase id }, supply) (handed ++ [channel]) where
  paired := fun other value hvalue => h.paired other value (lookup_erase_some.mp hvalue).2
  made := h.made
  distinct := h.distinct
  handedMade := by
    intro value hvalue
    rcases List.mem_append.mp hvalue with hvalue | hvalue
    · exact h.handedMade value hvalue
    · rw [List.mem_singleton.mp hvalue]
      exact h.made id channel (h.paired id channel hreceiver)
  handedGone := by
    intro value hvalue other hother
    obtain ⟨hne, hold⟩ := lookup_erase_some.mp hother
    rcases List.mem_append.mp hvalue with hvalue | hvalue
    · exact h.handedGone value hvalue other hold
    · rw [List.mem_singleton.mp hvalue] at hold
      exact hne (h.distinct other id channel (h.paired other channel hold)
        (h.paired id channel hreceiver))
  once := by
    refine List.nodup_append.mpr ⟨h.once, List.nodup_singleton channel, ?_⟩
    intro value hvalue other hother heq
    rw [List.mem_singleton.mp hother] at heq
    exact h.handedGone value hvalue id (heq ▸ hreceiver)

theorem Owned.stop (h : Owned (bus, supply) handed) (id : Uuid) :
    Owned (bus.stop id, supply) handed where
  paired := by
    intro other value hvalue
    obtain ⟨hne, hold⟩ := lookup_erase_some.mp hvalue
    exact lookup_erase_some.mpr ⟨hne, h.paired other value hold⟩
  made := fun other value hvalue => h.made other value (lookup_erase_some.mp hvalue).2
  distinct := fun other other' value hvalue hvalue' =>
    h.distinct other other' value (lookup_erase_some.mp hvalue).2 (lookup_erase_some.mp hvalue').2
  handedMade := h.handedMade
  handedGone := fun value hvalue other hother =>
    h.handedGone value hvalue other (lookup_erase_some.mp hother).2
  once := h.once

theorem foldl_stop (ids : Multiset Uuid) (bus : MessageBus) (id : Uuid) :
    (ids.foldl MessageBus.stop bus).senders.lookup id =
        (if id ∈ ids then none else bus.senders.lookup id) ∧
      (ids.foldl MessageBus.stop bus).receivers.lookup id =
        if id ∈ ids then none else bus.receivers.lookup id := by
  induction ids using Multiset.induction generalizing bus with
  | empty => simp
  | cons first rest ih =>
    rw [Multiset.foldl_cons, (ih (bus.stop first)).1, (ih (bus.stop first)).2]
    by_cases hfirst : id = first
    · subst hfirst
      simp [MessageBus.stop]
    · simp [MessageBus.stop, hfirst, Finmap.lookup_erase_ne hfirst]

theorem lookup_stopAll (bus : MessageBus) (id : Uuid) :
    bus.stopAll.senders.lookup id = none ∧
      bus.stopAll.receivers.lookup id =
        if id ∈ bus.senders then none else bus.receivers.lookup id := by
  have hkeys : id ∈ bus.senders.keys.val ↔ id ∈ bus.senders := Finmap.mem_keys
  obtain ⟨hsender, hreceiver⟩ := foldl_stop bus.senders.keys.val bus id
  simp only [hkeys] at hsender hreceiver
  refine ⟨hsender.trans ?_, hreceiver⟩
  by_cases hid : id ∈ bus.senders
  · rw [if_pos hid]
  · rw [if_neg hid, Finmap.lookup_eq_none.mpr hid]

/-- Stopping every sender leaves nothing, as no receiver is without its sender. -/
theorem stopAll_eq_new (hpaired : ∀ id channel, bus.receivers.lookup id = some channel →
    bus.senders.lookup id = some channel) : bus.stopAll = MessageBus.new := by
  have hsenders : bus.stopAll.senders = ∅ := by
    apply Finmap.ext_lookup
    intro id
    rw [(lookup_stopAll bus id).1, Finmap.lookup_empty]
  have hreceivers : bus.stopAll.receivers = ∅ := by
    apply Finmap.ext_lookup
    intro id
    rw [(lookup_stopAll bus id).2, Finmap.lookup_empty]
    by_cases hid : id ∈ bus.senders
    · rw [if_pos hid]
    · rw [if_neg hid]
      cases hreceiver : bus.receivers.lookup id with
      | none => rfl
      | some channel =>
        exact absurd (Finmap.mem_of_lookup_eq_some (hpaired id channel hreceiver)) hid
  exact congrArg₂ MessageBus.mk hsenders hreceivers

theorem Owned.stopAll (h : Owned (bus, supply) handed) : Owned (bus.stopAll, supply) handed := by
  have hnew : bus.stopAll = MessageBus.new := stopAll_eq_new h.paired
  rw [hnew]
  refine ⟨?_, ?_, ?_, h.handedMade, ?_, h.once⟩ <;> simp [MessageBus.new]

/-- Taking both ends fails where the receiver is out already, and changes nothing then.
Otherwise both ends are those of one channel, which was there or is new. -/
theorem channelPairWithId_cases (h : Owned (bus, supply) handed) (capacity : ℕ) (id : Uuid) :
    (bus.channelPairWithId supply capacity id = (bus, supply, .error (.ChannelNotFound id))) ∨
    (∃ channel, bus.receivers.lookup id = some channel ∧
      bus.channelPairWithId supply capacity id =
        ({ bus with receivers := bus.receivers.erase id }, supply, .ok (channel, channel))) ∨
    (bus.Unused id ∧ bus.channelPairWithId supply capacity id =
      ({ bus with senders := bus.senders.insert id supply.nextChannel },
        (supply.syncChannel capacity).2, .ok (supply.nextChannel, supply.nextChannel))) := by
  cases hsender : bus.senders.lookup id with
  | some channel =>
    have hexists : bus.channelExists id = true :=
      decide_eq_true (Finmap.mem_of_lookup_eq_some hsender)
    cases hreceiver : bus.receivers.lookup id with
    | none =>
      left
      simp [MessageBus.channelPairWithId, hexists, MessageBus.subscribe, hreceiver]
    | some channel' =>
      right; left
      have hsame := h.paired id channel' hreceiver
      refine ⟨channel', rfl, ?_⟩
      simp [MessageBus.channelPairWithId, hexists, MessageBus.subscribe, hreceiver,
        MessageBus.publish, hsame]
  | none =>
    right; right
    have hnone : id ∉ bus.senders := Finmap.lookup_eq_none.mp hsender
    have hreceiver : id ∉ bus.receivers := by
      intro hmem
      obtain ⟨channel, hchannel⟩ := Finmap.mem_iff.mp hmem
      have hsome := h.paired id channel hchannel
      rw [hsender] at hsome
      cases hsome
    refine ⟨⟨hnone, hreceiver⟩, ?_⟩
    have hback := erase_insert_of_notMem hreceiver supply.nextChannel
    simp [MessageBus.channelPairWithId, MessageBus.channelExists, MessageBus.createChannelWithUuid,
      MessageBus.subscribe, MessageBus.publish, Supply.syncChannel, hnone, hreceiver, hback]

/-- A channel made and taken at once leaves its sender on the bus. -/
theorem Owned.createTaken (h : Owned (bus, supply) handed) (hunused : bus.Unused id)
    (capacity : ℕ) :
    Owned ({ bus with senders := bus.senders.insert id supply.nextChannel },
      (supply.syncChannel capacity).2) (handed ++ [supply.nextChannel]) := by
  have hreceiver : (bus.receivers.insert id supply.nextChannel).lookup id =
      some supply.nextChannel := Finmap.lookup_insert _
  have htaken := (h.create hunused capacity).subscribe hreceiver
  simp only [erase_insert_of_notMem hunused.2] at htaken
  exact htaken

end Operations

section Histories
variable {uuids : ℕ → Uuid} {state : State} {log : List Outcome}

theorem Owned.drawn {bus : MessageBus} {supply : Supply} {handed : List ChannelId}
    (h : Owned (bus, supply) handed) : Owned (bus, (supply.newV4 uuids).2) handed :=
  ⟨h.paired, h.made, h.distinct, h.handedMade, h.handedGone, h.once⟩

theorem handedOut_append (log : List Outcome) (outcome : Outcome) :
    handedOut (log ++ [outcome]) = handedOut log ++ outcome.handedOut.toList := by
  rw [handedOut, List.filterMap_append]
  cases houtcome : outcome.handedOut <;> simp [handedOut, houtcome]

theorem handedOut_quiet (log : List Outcome) {outcome : Outcome}
    (h : outcome.handedOut = none) : handedOut (log ++ [outcome]) = handedOut log := by
  rw [handedOut_append, h, Option.toList_none, List.append_nil]

/-- Every operation keeps the invariant, with the receiver it hands out. -/
theorem owned_step (h : Owned state (handedOut log)) (op : Op) :
    Owned (step uuids state op).1 (handedOut (log ++ [(step uuids state op).2])) := by
  obtain ⟨bus, supply⟩ := state
  cases op with
  | createChannel bound =>
    rcases createChannelWithUuid_cases bus (supply.newV4 uuids).2 bound (supply.newV4 uuids).1 with
      ⟨-, hcreate⟩ | ⟨hunused, hcreate⟩
    · simp only [step, MessageBus.createChannel, hcreate]
      rw [handedOut_quiet log rfl]
      exact h.drawn
    · simp only [step, MessageBus.createChannel, hcreate]
      rw [handedOut_quiet log rfl]
      exact h.drawn.create hunused bound
  | createChannelWithUuid bound uuid =>
    rcases createChannelWithUuid_cases bus supply bound uuid with
      ⟨-, hcreate⟩ | ⟨hunused, hcreate⟩
    · simp only [step, hcreate]
      rw [handedOut_quiet log rfl]
      exact h
    · simp only [step, hcreate]
      rw [handedOut_quiet log rfl]
      exact h.create hunused bound
  | subscribe id =>
    cases hreceiver : bus.receivers.lookup id with
    | none =>
      simp only [step, MessageBus.subscribe, hreceiver]
      rw [handedOut_quiet log rfl]
      exact h
    | some channel =>
      simp only [step, MessageBus.subscribe, hreceiver]
      rw [handedOut_append]
      exact h.subscribe hreceiver
  | publish id =>
    cases hsender : bus.senders.lookup id with
    | none =>
      simp only [step, MessageBus.publish, hsender]
      rw [handedOut_quiet log rfl]
      exact h
    | some channel =>
      simp only [step, MessageBus.publish, hsender]
      rw [handedOut_quiet log rfl]
      exact h
  | stop id =>
    rw [handedOut_quiet log rfl]
    exact h.stop id
  | stopAll =>
    rw [handedOut_quiet log rfl]
    exact h.stopAll
  | channelPairWithId capacity id =>
    rcases channelPairWithId_cases h capacity id with hpair | ⟨channel, hreceiver, hpair⟩ |
      ⟨hunused, hpair⟩
    · simp only [step, hpair]
      rw [handedOut_quiet log rfl]
      exact h
    · simp only [step, hpair]
      rw [handedOut_append]
      exact h.subscribe hreceiver
    · simp only [step, hpair]
      rw [handedOut_append]
      exact h.createTaken hunused capacity

theorem owned_run (uuids : ℕ → Uuid) (supply : Supply) (ops : List Op) :
    Owned (run uuids (MessageBus.new, supply) ops).1
      (handedOut (run uuids (MessageBus.new, supply) ops).2) :=
  Loops.history (fun state _ log => Owned state (handedOut log))
    (fun _ _ _ op _ hstate => owned_step hstate op) (owned_new supply) ops

end Histories

/-- A creation fails exactly when the identifier is in use, and leaves the bus as it is then. -/
def RefusedIfUsed (bus : MessageBus) (id : Uuid) (result : State × Outcome) : Prop :=
  ((∃ e, result.2 = .failed e) ↔ ¬ bus.Unused id) ∧ (¬ bus.Unused id → result.1.1 = bus)

/-- A creation leaves both ends of a channel on the bus that has not been there before. -/
def Registers (bus : MessageBus) (handed : List ChannelId) (id : Uuid)
    (result : State × Outcome) : Prop :=
  result.2 = .created id ∧ ∃ channel, channel ∉ handed ∧
    (∀ other, bus.senders.lookup other ≠ some channel) ∧
    result.1.1 = ⟨bus.senders.insert id channel, bus.receivers.insert id channel⟩

/-- Both ends of one channel are handed out, or the bus is as it was. -/
def BothOrNothing (bus : MessageBus) (result : State × Outcome) : Prop :=
  (∃ channel, result.2 = .pair channel channel) ∨
    (∃ e, result.2 = .failed e) ∧ result.1.1 = bus

theorem refusedIfUsed_createChannelWithUuid (uuids : ℕ → Uuid) (bus : MessageBus)
    (supply : Supply) (bound : ℕ) (id : Uuid) :
    RefusedIfUsed bus id (step uuids (bus, supply) (.createChannelWithUuid bound id)) := by
  rcases createChannelWithUuid_cases bus supply bound id with ⟨hused, hcreate⟩ | ⟨hunused, hcreate⟩
  · simp [RefusedIfUsed, step, hcreate, hused]
  · simp [RefusedIfUsed, step, hcreate, hunused]

theorem refusedIfUsed_createChannel (uuids : ℕ → Uuid) (bus : MessageBus) (supply : Supply)
    (bound : ℕ) :
    RefusedIfUsed bus (supply.newV4 uuids).1 (step uuids (bus, supply) (.createChannel bound)) := by
  rcases createChannelWithUuid_cases bus (supply.newV4 uuids).2 bound (supply.newV4 uuids).1 with
    ⟨hused, hcreate⟩ | ⟨hunused, hcreate⟩
  · simp [RefusedIfUsed, step, MessageBus.createChannel, hcreate, hused]
  · simp [RefusedIfUsed, step, MessageBus.createChannel, hcreate, hunused]

theorem Owned.fresh {bus : MessageBus} {supply : Supply} {handed : List ChannelId}
    (h : Owned (bus, supply) handed) :
    supply.nextChannel ∉ handed ∧ ∀ other, bus.senders.lookup other ≠ some supply.nextChannel :=
  ⟨fun hmem => Nat.lt_irrefl _ (h.handedMade _ hmem),
    fun other hother => Nat.lt_irrefl _ (h.made other _ hother)⟩

theorem registers_createChannelWithUuid {uuids : ℕ → Uuid} {bus : MessageBus} {supply : Supply}
    {handed : List ChannelId} (h : Owned (bus, supply) handed) (bound : ℕ) (id : Uuid)
    (hunused : bus.Unused id) :
    Registers bus handed id (step uuids (bus, supply) (.createChannelWithUuid bound id)) := by
  rcases createChannelWithUuid_cases bus supply bound id with ⟨hused, -⟩ | ⟨-, hcreate⟩
  · exact absurd hunused hused
  · simp only [step, hcreate]
    exact ⟨rfl, supply.nextChannel, h.fresh.1, h.fresh.2, rfl⟩

theorem registers_createChannel {uuids : ℕ → Uuid} {bus : MessageBus} {supply : Supply}
    {handed : List ChannelId} (h : Owned (bus, supply) handed) (bound : ℕ)
    (hunused : bus.Unused (supply.newV4 uuids).1) :
    Registers bus handed (supply.newV4 uuids).1
      (step uuids (bus, supply) (.createChannel bound)) := by
  rcases createChannelWithUuid_cases bus (supply.newV4 uuids).2 bound (supply.newV4 uuids).1 with
    ⟨hused, -⟩ | ⟨-, hcreate⟩
  · exact absurd hunused hused
  · simp only [step, MessageBus.createChannel, hcreate]
    exact ⟨rfl, supply.nextChannel, h.fresh.1, h.fresh.2, rfl⟩

theorem bothOrNothing_channelPairWithId {uuids : ℕ → Uuid} {bus : MessageBus} {supply : Supply}
    {handed : List ChannelId} (h : Owned (bus, supply) handed) (capacity : ℕ) (id : Uuid) :
    BothOrNothing bus (step uuids (bus, supply) (.channelPairWithId capacity id)) := by
  rcases channelPairWithId_cases h capacity id with hpair | ⟨channel, -, hpair⟩ | ⟨-, hpair⟩
  · exact Or.inr (by simp [step, hpair])
  · exact Or.inl ⟨channel, by simp [step, hpair]⟩
  · exact Or.inl ⟨supply.nextChannel, by simp [step, hpair]⟩

/-- After any sequence of operations on a new bus: a receiver has the sender of its channel,
no receiver has been handed out twice, a creation is refused exactly for an identifier in
use and puts both ends of a new channel under it otherwise, taking both ends gives those of one
channel or changes nothing, and stopping all channels empties the bus. -/
theorem bus_of_reachable (uuids : ℕ → Uuid) (supply : Supply) (ops : List Op) :
    ∃ bus supply' log, run uuids (MessageBus.new, supply) ops = ((bus, supply'), log) ∧
      (∀ id channel, bus.receivers.lookup id = some channel →
        bus.senders.lookup id = some channel) ∧
      (handedOut log).Nodup ∧
      (∀ bound id, RefusedIfUsed bus id
        (step uuids (bus, supply') (.createChannelWithUuid bound id))) ∧
      (∀ bound, RefusedIfUsed bus (supply'.newV4 uuids).1
        (step uuids (bus, supply') (.createChannel bound))) ∧
      (∀ bound id, bus.Unused id → Registers bus (handedOut log) id
        (step uuids (bus, supply') (.createChannelWithUuid bound id))) ∧
      (∀ bound, bus.Unused (supply'.newV4 uuids).1 →
        Registers bus (handedOut log) (supply'.newV4 uuids).1
          (step uuids (bus, supply') (.createChannel bound))) ∧
      (∀ capacity id, BothOrNothing bus
        (step uuids (bus, supply') (.channelPairWithId capacity id))) ∧
      (step uuids (bus, supply') .stopAll).1.1 = ⟨∅, ∅⟩ := by
  rcases hrun : run uuids (MessageBus.new, supply) ops with ⟨⟨bus, supply'⟩, log⟩
  have howned := owned_run uuids supply ops
  rw [hrun] at howned
  exact ⟨bus, supply', log, rfl, howned.paired, howned.once,
    refusedIfUsed_createChannelWithUuid uuids bus supply',
    refusedIfUsed_createChannel uuids bus supply', registers_createChannelWithUuid howned,
    registers_createChannel howned, bothOrNothing_channelPairWithId howned,
    stopAll_eq_new howned.paired⟩

/-- The identifier of a stopped channel is used again, and each of the two receivers is
handed out once. -/
example : (run (fun _ => 9) (MessageBus.new, Supply.initial)
    [.channelPairWithId 1 7, .subscribe 7, .stop 7, .channelPairWithId 1 7]).2.filterMap
      Outcome.handedOut = [0, 1] := by decide

end NetfabricBgp.BusOwnerships
