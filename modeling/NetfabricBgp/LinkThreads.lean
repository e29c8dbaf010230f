import NetfabricBgp.Interfaces

/-!
An interface in a thread of its own. A call of `send` or `receive` runs a loop over messages,
and between two of them other threads can act, so each round of such a loop is a step. Taken
without interruption, the steps of a call are the call.
-/
namespace NetfabricBgp.LinkThreads

open Advertisements BoundedQueues Channels Interfaces

/-- Between two calls, or inside the loop of one. -/
inductive Activity
  | idle
  | sending (rest : List Advertisement)
  | receiving

structure Endpoint where
  interface : Interface
  activity : Activity

/-- The calls on an interface; `proceed` is one round of the loop of the call that runs. -/
inductive Action
  | pushOutgoingAdvertisement (advertisement : Advertisement)
  | pushOutgoingAdvertisements (advertisements : List Advertisement)
  | send
  | receive (lock : LockAttempt)
  | getIncomingAdvertisements
  | setBufferSize (incoming outgoing : ℕ)
  | forceResize
  | proceed

namespace Endpoint

/-- A call up to its loop, with what it returned if it has none. -/
def begin (self : Interface) : Action → Endpoint × List Advertisement
  | .pushOutgoingAdvertisement advertisement =>
    (⟨(self.pushOutgoingAdvertisement advertisement).1, .idle⟩, [])
  | .pushOutgoingAdvertisements advertisements =>
    (⟨(self.pushOutgoingAdvertisements advertisements).1, .idle⟩, [])
  | .send =>
    if self.outgoingAdvertisements.items = [] then (⟨self, .idle⟩, [])
    else
      match self.outChannel with
      | none => (⟨self, .idle⟩, [])
      | some _ =>
        (⟨{ self with outgoingAdvertisements := .empty self.bufferSizeOutgoing },
          .sending self.outgoingAdvertisements.items⟩, [])
  | .receive lock =>
    match self.inChannel, lock with
    | none, _ => (⟨self, .idle⟩, [])
    | some _, .timedOut => (⟨self, .idle⟩, [])
    | some _, .acquired => (⟨self, .receiving⟩, [])
  | .getIncomingAdvertisements =>
    let (interface, advertisements) := self.getIncomingAdvertisements
    (⟨interface, .idle⟩, advertisements)
  | .setBufferSize incoming outgoing => (⟨self.setBufferSize incoming outgoing, .idle⟩, [])
  | .forceResize => (⟨self.forceResize, .idle⟩, [])
  | .proceed => (⟨self, .idle⟩, [])

/-- A round of the loop of `send`. -/
def sendNext (self : Interface) (links : Links) (ad : Advertisement)
    (rest : List Advertisement) : Links × Endpoint :=
  let (keep, ad) := self.outFilter ad
  if keep then
    match self.outChannel with
    | none => (links, ⟨self, .idle⟩)
    | some id =>
      match (links id).trySend (.advertisement ad) with
      | .ok channel => (Function.update links id channel, ⟨self, .sending rest⟩)
      | .error _ => (links, ⟨self, .idle⟩)
  else (links, ⟨self, .sending rest⟩)

/-- What a round of the loop of `receive` does with a message that is off the channel. -/
def take (self : Interface) (message : Message) : Endpoint :=
  match message.cast with
  | none => ⟨self, .idle⟩
  | some ad =>
    let (keep, ad) := self.inFilter ad
    if keep then
      if h : self.incomingAdvertisements.items.length < self.incomingAdvertisements.capacity then
        ⟨{ self with incomingAdvertisements := self.incomingAdvertisements.push ad h }, .receiving⟩
      else ⟨self, .idle⟩
    else ⟨self, .receiving⟩

/-- `try_recv` on a channel: its queue without the first message. -/
def pop (channel : Channel) : Channel :=
  { channel with queue := channel.queue.keepSuffix channel.queue.items.tail (List.tail_suffix _) }

def receiveNext (self : Interface) (links : Links) : Links × Endpoint :=
  match self.inChannel with
  | none => (links, ⟨self, .idle⟩)
  | some id =>
    match (links id).queue.items with
    | [] => (links, ⟨self, .idle⟩)
    | message :: _ => (Function.update links id (pop (links id)), take self message)

def proceed (self : Endpoint) (links : Links) : Links × Endpoint :=
  match self.activity with
  | .idle => (links, self)
  | .sending [] => (links, ⟨self.interface, .idle⟩)
  | .sending (ad :: rest) => sendNext self.interface links ad rest
  | .receiving => receiveNext self.interface links

/-- The owner of an interface makes no new call while one runs. -/
def step (self : Endpoint) (links : Links) (action : Action) :
    Links × Endpoint × List Advertisement :=
  match self.activity, action with
  | _, .proceed =>
    let (links, endpoint) := self.proceed links
    (links, endpoint, [])
  | .idle, action =>
    let (endpoint, returned) := begin self.interface action
    (links, endpoint, returned)
  | _, _ => (links, self, [])

section Steps
variable {self : Endpoint} {links : Links} {action : Action}

theorem step_of_idle (hidle : self.activity = .idle) (hproceed : action ≠ .proceed) :
    self.step links action =
      (links, (begin self.interface action).1, (begin self.interface action).2) := by
  unfold step
  rw [hidle]
  cases action with
  | proceed => exact absurd rfl hproceed
  | _ => rfl

theorem step_of_busy (hbusy : self.activity ≠ .idle) (hproceed : action ≠ .proceed) :
    self.step links action = (links, self, []) := by
  unfold step
  cases hactivity : self.activity with
  | idle => exact absurd hactivity hbusy
  | _ =>
    cases action with
    | proceed => exact absurd rfl hproceed
    | _ => rfl

end Steps

end Endpoint

open Endpoint

section Uninterrupted
variable {interface : Interface} {id : ChannelId}

/-- Rounds of the loop that runs, with no other thread between them. -/
def alone (state : Links × Endpoint) : Links × Endpoint := state.2.proceed state.1

theorem sendLoop_alone (hout : interface.outChannel = some id) (rest : List Advertisement)
    (links : Links) :
    ∃ n, alone^[n] (links, ⟨interface, .sending rest⟩) =
      (Function.update links id (sendLoop interface.outFilter (links id) rest),
        ⟨interface, .idle⟩) := by
  induction rest generalizing links with
  | nil =>
    refine ⟨1, ?_⟩
    rw [sendLoop, Function.update_eq_self]
    rfl
  | cons ad rest ih =>
    by_cases hkeep : (interface.outFilter ad).1 = true
    · cases hsend : (links id).trySend (.advertisement (interface.outFilter ad).2) with
      | ok channel =>
        obtain ⟨n, hn⟩ := ih (Function.update links id channel)
        refine ⟨n + 1, ?_⟩
        have hnext : alone (links, ⟨interface, .sending (ad :: rest)⟩) =
            (Function.update links id channel, ⟨interface, .sending rest⟩) := by
          simp [alone, proceed, sendNext, hkeep, hout, hsend]
        rw [Function.iterate_succ_apply, hnext, hn, Function.update_idem, Function.update_self]
        simp [sendLoop, hkeep, hsend]
      | error e =>
        refine ⟨1, ?_⟩
        simp [alone, proceed, sendNext, hkeep, hout, hsend, sendLoop]
    · obtain ⟨n, hn⟩ := ih links
      refine ⟨n + 1, ?_⟩
      have hnext : alone (links, ⟨interface, .sending (ad :: rest)⟩) =
          (links, ⟨interface, .sending rest⟩) := by
        simp [alone, proceed, sendNext, hkeep]
      rw [Function.iterate_succ_apply, hnext, hn]
      simp [sendLoop, hkeep]

/-- Uninterrupted, the steps of `send` do what `send` does. -/
theorem send_alone (interface : Interface) (links : Links) :
    ∃ n, alone^[n] (links, (begin interface .send).1) =
      ((interface.send links).1, ⟨(interface.send links).2, .idle⟩) := by
  by_cases hnil : interface.outgoingAdvertisements.items = []
  · exact ⟨0, by simp [begin, Interface.send, hnil]⟩
  · cases hout : interface.outChannel with
    | none => exact ⟨0, by simp [begin, Interface.send, hnil, hout]⟩
    | some id =>
      obtain ⟨n, hn⟩ := @sendLoop_alone
        { interface with outgoingAdvertisements := .empty interface.bufferSizeOutgoing } id hout
        interface.outgoingAdvertisements.items links
      refine ⟨n, ?_⟩
      simpa only [begin, Interface.send, hnil, if_false, hout] using hn

theorem take_ne_sending {interface' : Interface} {message : Message}
    (left : List Advertisement) : take interface message ≠ ⟨interface', .sending left⟩ := by
  unfold take
  cases message.cast with
  | none => simp
  | some ad =>
    by_cases hkeep : (interface.inFilter ad).1 = true
    · by_cases hroom : interface.incomingAdvertisements.items.length <
        interface.incomingAdvertisements.capacity <;> simp [hkeep, hroom]
    · simp [hkeep]

/-- A message that the loop of `receive` goes on after. -/
theorem receive_of_take {interface' : Interface} {links : Links} {message : Message}
    {rest : List Message} (hin : interface.inChannel = some id)
    (hqueue : (links id).queue.items = message :: rest)
    (htake : take interface message = ⟨interface', .receiving⟩) :
    interface'.inChannel = some id ∧
      interface.receive .acquired links =
        interface'.receive .acquired (Function.update links id (pop (links id))) := by
  unfold take at htake
  cases hcast : message.cast with
  | none => simp [hcast] at htake
  | some ad =>
    simp only [hcast] at htake
    by_cases hkeep : (interface.inFilter ad).1 = true
    · by_cases hroom : interface.incomingAdvertisements.items.length <
        interface.incomingAdvertisements.capacity
      · simp only [hkeep, if_true, hroom, dif_pos, Endpoint.mk.injEq, and_true] at htake
        subst htake
        refine ⟨hin, ?_⟩
        simp [Interface.receive, hin, hqueue, pop, receiveLoop, hcast, hkeep, hroom,
          Bounded.keepSuffix]
      · simp [hkeep, hroom] at htake
    · simp only [hkeep, Bool.false_eq_true, if_false, Endpoint.mk.injEq, and_true] at htake
      subst htake
      refine ⟨hin, ?_⟩
      simp [Interface.receive, hin, hqueue, pop, receiveLoop, hcast, hkeep, Bounded.keepSuffix]

/-- A message that the loop of `receive` ends with. -/
theorem receive_of_last {interface' : Interface} {links : Links} {message : Message}
    {rest : List Message} (hin : interface.inChannel = some id)
    (hqueue : (links id).queue.items = message :: rest)
    (htake : take interface message = ⟨interface', .idle⟩) :
    (interface.receive .acquired links).1 = Function.update links id (pop (links id)) ∧
      (interface.receive .acquired links).2.1 = interface' := by
  have heta : { interface with inChannel := some id } = interface := by rw [← hin]
  unfold take at htake
  cases hcast : message.cast with
  | none =>
    simp only [hcast, Endpoint.mk.injEq, and_true] at htake
    subst htake
    simp [Interface.receive, hin, hqueue, pop, receiveLoop, hcast, Bounded.keepSuffix, heta]
  | some ad =>
    simp only [hcast] at htake
    by_cases hkeep : (interface.inFilter ad).1 = true
    · by_cases hroom : interface.incomingAdvertisements.items.length <
        interface.incomingAdvertisements.capacity
      · simp [hkeep, hroom] at htake
      · simp only [hkeep, if_true, hroom, dif_neg, not_false_eq_true, Endpoint.mk.injEq,
          and_true] at htake
        subst htake
        simp [Interface.receive, hin, hqueue, pop, receiveLoop, hcast, hkeep, hroom,
          Bounded.keepSuffix, heta]
    · simp [hkeep] at htake

/-- A message is taken from the channel in each round, so the loop comes to its end. -/
theorem receiveLoop_alone (interface : Interface) (links : Links)
    (hin : interface.inChannel = some id) :
    ∃ n, alone^[n] (links, ⟨interface, .receiving⟩) =
      ((interface.receive .acquired links).1,
        ⟨(interface.receive .acquired links).2.1, .idle⟩) := by
  induction hlen : (links id).queue.items.length generalizing interface links with
  | zero =>
    have hqueue := List.eq_nil_of_length_eq_zero hlen
    obtain ⟨result, hreceive⟩ := @Interface.receive_of_empty interface links .acquired
      (fun id' hin' => Option.some.inj (hin.symm.trans hin') ▸ hqueue)
    refine ⟨1, ?_⟩
    simp [alone, proceed, receiveNext, hin, hqueue, hreceive]
  | succ n ih =>
    obtain ⟨message, rest, hqueue⟩ := List.exists_cons_of_length_eq_add_one hlen
    have hnext : alone (links, ⟨interface, .receiving⟩) =
        (Function.update links id (pop (links id)), take interface message) := by
      simp [alone, proceed, receiveNext, hin, hqueue]
    rcases htake : take interface message with ⟨interface', activity⟩
    cases activity with
    | idle =>
      obtain ⟨hlinks, hinterface⟩ := receive_of_last hin hqueue htake
      refine ⟨1, ?_⟩
      rw [Function.iterate_one, hnext, hlinks, hinterface, htake]
    | receiving =>
      obtain ⟨hin', hreceive⟩ := receive_of_take hin hqueue htake
      have hshort : ((Function.update links id (pop (links id))) id).queue.items.length = n := by
        rw [Function.update_self]
        simp only [pop, Bounded.keepSuffix, List.length_tail]
        omega
      obtain ⟨rounds, hrounds⟩ := ih interface' _ hin' hshort
      refine ⟨rounds + 1, ?_⟩
      rw [Function.iterate_succ_apply, hnext, htake, hrounds, hreceive]
    | sending left => exact absurd htake (take_ne_sending left)

/-- Uninterrupted, the steps of `receive` do what `receive` does. -/
theorem receive_alone (interface : Interface) (lock : LockAttempt) (links : Links) :
    ∃ n, alone^[n] (links, (begin interface (.receive lock)).1) =
      ((interface.receive lock links).1, ⟨(interface.receive lock links).2.1, .idle⟩) := by
  cases hin : interface.inChannel with
  | none => exact ⟨0, by simp [begin, Interface.receive, hin]⟩
  | some id =>
    cases lock with
    | timedOut => exact ⟨0, by simp [begin, Interface.receive, hin]⟩
    | acquired =>
      obtain ⟨n, hn⟩ := receiveLoop_alone interface links hin
      refine ⟨n, ?_⟩
      simp only [begin, hin]
      exact hn

end Uninterrupted

end NetfabricBgp.LinkThreads
