import NetfabricBgp.StateMachineHandles
import NetfabricBgp.ThreadSteps

/-!
A started network. Each router has a runner, which takes at most one command between two cycles
and works through the processes of the router while it is told to run. The channel of its
commands has room for one, so a sender waits until the command before has been taken.
-/
namespace NetfabricBgp.RouterMachines

open RouterMasks Ribs Advertisements Channels StateMachines MessageBuses StateMachineHandles
  ProcessThreads

/-- Where a runner is: between two iterations of its loop, or in `work` at a process. -/
inductive Position
  | between
  | working (process : ℕ)
deriving DecidableEq

/-- The thread is between two cycles. -/
def cycleOver : Option Thread → Bool
  | some thread =>
    match thread.stage with
    | .receive 0 => true
    | _ => false
  | none => true

/-- The runner of a router, whose processes are threads of the network. -/
structure Machine where
  runner : Runner Unit
  position : Position
  processes : ℕ

namespace Machine

def new (processes : ℕ) : Machine := ⟨⟨[], .Initialized, ()⟩, .between, processes⟩

/-- The loop of `Router::work` at a process. Behind the last one `work` returns. -/
def proceed (self : Machine) (n : ℕ) : Machine :=
  { self with position := if n < self.processes then .working n else .between }

/-- An iteration of the runner up to its work. A router has nothing to clean up. -/
def turn (self : Machine) : Machine :=
  let runner := (receive self.runner []).2
  match runner.internalState with
  | .Running => { self with runner := runner }.proceed 0
  | _ => { self with runner := runner }

/-- On to the next process when the cycle of the thread is over. -/
def after (self : Machine) (n : ℕ) (thread : Option Thread) : Machine :=
  if cycleOver thread then self.proceed (n + 1) else self

/-- The machine with one more command in its channel. -/
def withCommand (self : Machine) (command : InternalState) : Machine :=
  { self with
    runner := { self.runner with
      commandReceiver := self.runner.commandReceiver ++ [.command command] } }

/-- `send_command` on the bounded channel: nothing, if it has to wait. -/
def sendCommand (self : Machine) (command : InternalState) :
    Except StateMachineError (Option Machine) :=
  if stopped self.runner then .error (.MessageBusError .SendError)
  else if self.runner.commandReceiver.length < COMMAND_CAPACITY then
    .ok (some (self.withCommand command))
  else .ok none

end Machine

/-- The machines of a network, and the threads of their processes. -/
structure Machines (κ : Type*) where
  machine : κ → Option Machine
  threads : Threads (κ × ℕ)

/-- A command is sent to a machine, the machine begins an iteration or works on, or a message
arrives from outside or leaves. -/
inductive Event (κ : Type*)
  | command (id : κ) (command : InternalState)
  | turn (id : κ)
  | work (id : κ) (instant : Instant)
  | arrive (channel : ChannelId) (message : Channels.Message)
  | leave (channel : ChannelId)

/-- What has happened: a command was sent or could not be, an iteration began in an internal
state, or there was an effect of a thread or from outside. -/
inductive Report (κ : Type*)
  | commanded (id : κ) (command : InternalState)
  | failed (id : κ) (command : InternalState)
  | turned (id : κ) (internalState : InternalState)
  | effect (entry : Option (κ × ℕ) × Effect)

section Steps
variable {κ : Type*} [DecidableEq κ] (forms : TextForms)

def setMachine (self : Machines κ) (id : κ) (machine : Machine) : Machines κ :=
  { self with machine := Function.update self.machine id (some machine) }

/-- An event of the threads alone. -/
def onThreads (self : Machines κ) (event : ProcessThreads.Event (κ × ℕ)) :
    Except Panic (Machines κ × Option (Report κ)) :=
  match ProcessThreads.step forms self.threads event with
  | .error panic => .error panic
  | .ok (threads, entry) => .ok ({ self with threads := threads }, entry.map .effect)

/-- A step of the process that a machine works on. -/
def work (self : Machines κ) (id : κ) (machine : Machine) (n : ℕ) (instant : Instant) :
    Except Panic (Machines κ × Option (Report κ)) :=
  match onThreads forms self (.act (id, n) instant) with
  | .error panic => .error panic
  | .ok (next, report) =>
    .ok (setMachine next id (machine.after n (next.threads.thread (id, n))), report)

def step (self : Machines κ) : Event κ → Except Panic (Machines κ × Option (Report κ))
  | .command id command =>
    match self.machine id with
    | none => .ok (self, none)
    | some machine =>
      match machine.sendCommand command with
      | .error _ => .ok (self, some (.failed id command))
      | .ok none => .ok (self, none)
      | .ok (some machine) => .ok (setMachine self id machine, some (.commanded id command))
  | .turn id =>
    match self.machine id with
    | none => .ok (self, none)
    | some machine =>
      if machine.position = .between ∧ stopped machine.runner = false then
        .ok (setMachine self id machine.turn,
          some (.turned id machine.turn.runner.internalState))
      else .ok (self, none)
  | .work id instant =>
    match self.machine id with
    | none => .ok (self, none)
    | some machine =>
      match machine.position with
      | .between => .ok (self, none)
      | .working n => work forms self id machine n instant
  | .arrive channel message => onThreads forms self (.arrive channel message)
  | .leave channel => onThreads forms self (.leave channel)

/-- The machines after some events, and what happened. -/
def run (self : Machines κ) (events : List (Event κ)) :
    Except Panic (Machines κ × List (Report κ)) := Runs.collect (step forms) self events

end Steps

end NetfabricBgp.RouterMachines
