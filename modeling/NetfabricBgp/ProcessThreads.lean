import NetfabricBgp.LinkThreads
import NetfabricBgp.Routers

/-!
The processes of a network, each in a thread of its own. A cycle of a process is taken apart
into its steps: a message taken from a channel or put on one, an advertisement applied to the
RIB under its lock, or something that no other thread sees. The steps of the threads, and of
whatever is joined to the network from outside, follow each other in any order.
-/
namespace NetfabricBgp.ProcessThreads

open RouterMasks Ribs RibInterfaces Advertisements KeyedLog Channels Interfaces Sessions Processes
  Supplies LinkThreads Routers

/-- Where a process is in its cycle: before or inside the loop of a session's `receive`, in
the updates of the RIB, before the advertisement is made, and before or inside the loop of a
session's `send`. -/
inductive Stage
  | receive (session : ℕ)
  | receiving (session : ℕ)
  | update (rest : List Advertisement)
  | publish
  | send (session : ℕ)
  | sending (session : ℕ) (rest : List Advertisement)

/-- What a step finds: the outcome of its lock attempt, and the clock. -/
structure Instant where
  lock : LockAttempt
  timestamp : UInt64

/-- What is shared between threads. -/
structure Shared where
  links : Links
  ribs : RibId → BgpRib

/-- What a step does that others can notice, or that is lost by it: a message is discarded if
it is no advertisement or the buffer is full, and refused if the channel is. -/
inductive Effect
  | take (channel : ChannelId) (message : Message)
  | discard (channel : ChannelId) (message : Message)
  | put (channel : ChannelId) (message : Message)
  | refuse (channel : ChannelId) (message : Message)
  | apply (rib : RibId) (client : Uuid) (advertisement : Advertisement)
  | skip (advertisement : Advertisement)
  | publish (advertisement : Advertisement)

/-- A process in a cycle, and what its sessions have received so far in this cycle. -/
structure Thread extends HostedProcess where
  stage : Stage
  received : List Advertisement

namespace Thread

/-- Between two cycles. -/
def start (hosted : HostedProcess) : Thread := ⟨hosted, .receive 0, []⟩

def interfaceAt (self : Thread) (n : ℕ) : Option Interface :=
  self.process.sessions[n]?.bind (·.interface)

def setInterface (self : Thread) (n : ℕ) (interface : Interface) : Thread :=
  { self with process :=
    { self.process with sessions := self.process.sessions.modify n (·.withInterface interface) } }

def atStage (self : Thread) (stage : Stage) : Thread := { self with stage := stage }

/-- A session's `receive` that returns what its interface has received. -/
def collect (self : Thread) (n : ℕ) (interface : Interface) : Thread :=
  let (interface, advertisements) := interface.getIncomingAdvertisements
  { self.setInterface n interface with
    stage := .receive (n + 1)
    received := self.received ++ advertisements }

/-- A session's `receive` up to the loop of its interface. -/
def beginReceive (self : Thread) (n : ℕ) (lock : LockAttempt) : Thread :=
  if n < self.process.sessions.length then
    match self.interfaceAt n with
    | none => self.atStage (.receive (n + 1))
    | some interface =>
      match interface.inChannel, lock with
      | none, _ => self.collect n interface
      | some _, .timedOut => self.atStage (.receive (n + 1))
      | some _, .acquired => self.atStage (.receiving n)
  else { self with stage := .update self.received, received := [] }

/-- A round of the loop of an interface's `receive`. -/
def receiveRound (self : Thread) (n : ℕ) (interface : Interface) (links : Links) :
    Links × Thread × Option Effect :=
  match interface.inChannel with
  | none => (links, self.collect n interface, none)
  | some id =>
    match (links id).queue.items with
    | [] => (links, self.collect n interface, none)
    | message :: _ =>
      let endpoint := Endpoint.take interface message
      let (thread, effect) :=
        match endpoint.activity, message.cast with
        | .receiving, _ =>
          ((self.setInterface n endpoint.interface).atStage (.receiving n), Effect.take id message)
        | _, none =>
          ((self.setInterface n endpoint.interface).atStage (.receive (n + 1)),
            .discard id message)
        | _, some _ => (self.collect n endpoint.interface, .discard id message)
      (Function.update links id (Endpoint.pop (links id)), thread, some effect)

/-- A session's `send` up to the loop of its interface. After the last session the
advertisements are cleared, and the cycle is over. -/
def beginSend (self : Thread) (n : ℕ) : Thread :=
  if n < self.process.sessions.length then
    match self.interfaceAt n with
    | none => self.atStage (.send (n + 1))
    | some interface =>
      let pushed := (interface.pushOutgoingAdvertisements self.process.advertisement).1
      let endpoint := (Endpoint.begin pushed .send).1
      match endpoint.activity with
      | .sending rest => (self.setInterface n endpoint.interface).atStage (.sending n rest)
      | _ => (self.setInterface n endpoint.interface).atStage (.send (n + 1))
  else
    { self with
      process := { self.process with advertisement := [] }
      stage := .receive 0 }

/-- A round of the loop of an interface's `send`. -/
def sendRound (self : Thread) (n : ℕ) (interface : Interface) (links : Links)
    (ad : Advertisement) (rest : List Advertisement) : Links × Thread × Option Effect :=
  let (keep, ad) := interface.outFilter ad
  if keep then
    match interface.outChannel with
    | none => (links, self.atStage (.send (n + 1)), none)
    | some id =>
      match (links id).trySend (.advertisement ad) with
      | .ok channel =>
        (Function.update links id channel, self.atStage (.sending n rest),
          some (.put id (.advertisement ad)))
      | .error _ =>
        (links, self.atStage (.send (n + 1)), some (.refuse id (.advertisement ad)))
  else (links, self.atStage (.sending n rest), none)

variable (forms : TextForms)

/-- One advertisement of `update`, with the lock taken. -/
def applyUpdate (self : Thread) (shared : Shared) (ad : Advertisement)
    (rest : List Advertisement) : Except Panic ((Shared × Thread) × Option Effect) :=
  match self.process.ribInterface.updateLocked forms (shared.ribs self.rib) ad with
  | .error panic => .error panic
  | .ok (rib, ribInterface) =>
    .ok (({ shared with ribs := Function.update shared.ribs self.rib rib },
        { self with
          process := { self.process with ribInterface := ribInterface }
          stage := .update rest }),
      some (.apply self.rib self.process.ribInterface.clientId ad))

/-- `get_best_route_changes` and `generate_advertisement` -/
def publish (self : Thread) (timestamp : UInt64) : Thread × Effect :=
  let process := self.process.getBestRouteChanges
  ({ self with
      process := process.generateAdvertisement forms timestamp
      stage := .send 0 },
    .publish (process.nextAdvertisement forms timestamp))

def step (self : Thread) (instant : Instant) (shared : Shared) :
    Except Panic ((Shared × Thread) × Option Effect) :=
  match self.stage with
  | .receive n => .ok ((shared, self.beginReceive n instant.lock), none)
  | .receiving n =>
    match self.interfaceAt n with
    | none => .ok ((shared, self.atStage (.receive (n + 1))), none)
    | some interface =>
      let (links, thread, effect) := self.receiveRound n interface shared.links
      .ok (({ shared with links := links }, thread), effect)
  | .update [] => .ok ((shared, self.atStage .publish), none)
  | .update (ad :: rest) =>
    match instant.lock with
    | .timedOut => .ok ((shared, self.atStage (.update rest)), some (.skip ad))
    | .acquired => self.applyUpdate forms shared ad rest
  | .publish =>
    let (thread, effect) := self.publish forms instant.timestamp
    .ok ((shared, thread), some effect)
  | .send n => .ok ((shared, self.beginSend n), none)
  | .sending n [] => .ok ((shared, self.atStage (.send (n + 1))), none)
  | .sending n (ad :: rest) =>
    match self.interfaceAt n with
    | none => .ok ((shared, self.atStage (.send (n + 1))), none)
    | some interface =>
      let (links, thread, effect) := self.sendRound n interface shared.links ad rest
      .ok (({ shared with links := links }, thread), effect)

end Thread

section Interfaces
variable {self : Thread} {n : ℕ} {interface : Interface}

theorem interfaceAt_of_length_le (h : self.process.sessions.length ≤ n) :
    self.interfaceAt n = none := by
  unfold Thread.interfaceAt
  rw [List.getElem?_eq_none h]
  rfl

theorem lt_length_of_interfaceAt (h : self.interfaceAt n = some interface) :
    n < self.process.sessions.length := by
  by_contra hnot
  rw [interfaceAt_of_length_le (by omega)] at h
  cases h

theorem interfaceAt_setInterface (m : ℕ) (interface : Interface) :
    (self.setInterface n interface).interfaceAt m =
      if m = n ∧ n < self.process.sessions.length then some interface
      else self.interfaceAt m := by
  unfold Thread.interfaceAt Thread.setInterface
  simp only [List.getElem?_modify]
  by_cases hm : m = n
  · subst hm
    by_cases hlt : m < self.process.sessions.length
    · simp [hlt, BgpSession.withInterface]
    · simp [hlt]
  · have hne : n ≠ m := fun h => hm h.symm
    simp [hm, hne]

theorem setInterface_setInterface (interface interface' : Interface) :
    (self.setInterface n interface).setInterface n interface' = self.setInterface n interface' := by
  unfold Thread.setInterface
  simp only [List.modify_modify_eq]
  rfl

end Interfaces

/-- The threads of a network, and what they share. -/
structure Threads (ι : Type*) where
  thread : ι → Option Thread
  shared : Shared

/-- A thread takes a step, or a message arrives from outside or leaves. -/
inductive Event (ι : Type*)
  | act (thread : ι) (instant : Instant)
  | arrive (channel : ChannelId) (message : Message)
  | leave (channel : ChannelId)

section Steps
variable {ι : Type*} [DecidableEq ι] (forms : TextForms)

/-- An event, and its effect with the thread that has it; outside there are no threads. -/
def step (self : Threads ι) : Event ι → Except Panic (Threads ι × Option (Option ι × Effect))
  | .act i instant =>
    match self.thread i with
    | none => .ok (self, none)
    | some thread =>
      match thread.step forms instant self.shared with
      | .error panic => .error panic
      | .ok ((shared, thread), effect) =>
        .ok (⟨Function.update self.thread i (some thread), shared⟩, effect.map (some i, ·))
  | .arrive id message =>
    match (self.shared.links id).trySend message with
    | .ok channel =>
      let shared := { self.shared with links := Function.update self.shared.links id channel }
      .ok (⟨self.thread, shared⟩, some (none, .put id message))
    | .error _ => .ok (self, some (none, .refuse id message))
  | .leave id =>
    match (self.shared.links id).queue.items with
    | [] => .ok (self, none)
    | message :: _ =>
      let links := Function.update self.shared.links id (Endpoint.pop (self.shared.links id))
      .ok (⟨self.thread, { self.shared with links := links }⟩, some (none, .take id message))

/-- The network after some events, and the effects they had. -/
def run (self : Threads ι) (events : List (Event ι)) :
    Except Panic (Threads ι × List (Option ι × Effect)) :=
  Runs.collect (step forms) self events

/-- An event without the account of its effect. -/
def advance (self : Threads ι) (event : Event ι) : Except Panic (Threads ι) :=
  (step forms self event).map Prod.fst

end Steps

end NetfabricBgp.ProcessThreads
