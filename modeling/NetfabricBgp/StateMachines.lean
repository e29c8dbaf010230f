import NetfabricBgp.Loops

/-!
The runner of a state machine. Each iteration takes at most one message from the command
channel, which sets the internal state, and then works, sleeps or cleans up. The user's
state is a parameter: what its work depends on besides itself comes from the environment
of the iteration.
-/
namespace NetfabricBgp.StateMachines

open Loops

inductive InternalState
  | Initialized
  | Running
  | Paused
  | Stopped
deriving DecidableEq

/-- What a state asks for after its work. -/
inductive StateTransition (σ : Type*)
  | Continue
  | Stop
  | Transition (next : σ)
deriving DecidableEq

/-- An implementation of the trait `State`; both methods may change the state they are
called on. -/
structure State (ε σ : Type*) where
  work : ε → σ → σ × StateTransition σ
  cleanup : ε → σ → σ

/-- A message on the command channel: a command, or anything that does not cast to one. -/
inductive Message
  | command (internalState : InternalState)
  | foreign
deriving DecidableEq

def Message.cast : Message → Option InternalState
  | .command internalState => some internalState
  | .foreign => none

/-- The internal state after a message; an invalid message stops the runner. -/
def Message.effect (message : Message) : InternalState :=
  match message.cast with
  | some internalState => internalState
  | none => .Stopped

/-- The runner between two iterations, with the messages that wait in its channel. -/
structure Runner (σ : Type*) where
  commandReceiver : List Message
  internalState : InternalState
  state : σ

/-- The messages sent since the last iteration, and what the state finds around it. -/
structure Iteration (ε : Type*) where
  arriving : List Message
  environment : ε

/-- The method that an iteration called: `work` with its result, or `cleanup` with the
state as it left it. -/
inductive Call (σ : Type*)
  | work (transition : StateTransition σ)
  | cleanup (result : σ)
deriving DecidableEq

/-- What one iteration did. -/
structure Turn (σ : Type*) where
  received : Option Message
  internalState : InternalState
  call : Option (Call σ)
deriving DecidableEq

section Iterations
variable {ε σ : Type*}

/-- The first half of an iteration: at most one message is taken, and it sets the internal
state. -/
def receive (self : Runner σ) (arriving : List Message) : Option Message × Runner σ :=
  match self.commandReceiver ++ arriving with
  | [] => (none, { self with commandReceiver := [] })
  | message :: waiting =>
    (some message, { self with commandReceiver := waiting, internalState := message.effect })

/-- The second half of an iteration: the runner works, sleeps or cleans up. -/
def act (impl : State ε σ) (environment : ε) (self : Runner σ) : Runner σ × Option (Call σ) :=
  match self.internalState with
  | .Running =>
    match impl.work environment self.state with
    | (state, .Continue) => ({ self with state := state }, some (.work .Continue))
    | (state, .Stop) =>
      ({ self with state := state, internalState := .Stopped }, some (.work .Stop))
    | (_, .Transition next) => ({ self with state := next }, some (.work (.Transition next)))
  | .Initialized | .Paused => (self, none)
  | .Stopped =>
    let state := impl.cleanup environment self.state
    ({ self with state := state }, some (.cleanup state))

def iterate (impl : State ε σ) (self : Runner σ) (i : Iteration ε) : Runner σ × Turn σ :=
  let (received, self) := receive self i.arriving
  let (next, call) := act impl i.environment self
  (next, ⟨received, self.internalState, call⟩)

def stopped (self : Runner σ) : Bool := self.internalState = .Stopped

/-- The runner started on a state, over as many iterations as are given; it has returned
when it is stopped. -/
def runner (impl : State ε σ) (state : σ) (iterations : List (Iteration ε)) :
    Runner σ × List (Turn σ) :=
  loop stopped (iterate impl) ⟨[], .Initialized, state⟩ iterations

theorem receive_fst (self : Runner σ) (arriving : List Message) :
    (receive self arriving).1 = (self.commandReceiver ++ arriving).head? := by
  unfold receive
  cases self.commandReceiver ++ arriving <;> rfl

theorem receive_commandReceiver (self : Runner σ) (arriving : List Message) :
    (receive self arriving).2.commandReceiver = (self.commandReceiver ++ arriving).tail := by
  unfold receive
  cases self.commandReceiver ++ arriving <;> rfl

theorem receive_state (self : Runner σ) (arriving : List Message) :
    (receive self arriving).2.state = self.state := by
  unfold receive
  cases self.commandReceiver ++ arriving <;> rfl

theorem receive_internalState (self : Runner σ) (arriving : List Message) :
    (receive self arriving).2.internalState =
      ((receive self arriving).1.map Message.effect).getD self.internalState := by
  unfold receive
  cases self.commandReceiver ++ arriving <;> rfl

theorem act_commandReceiver (impl : State ε σ) (environment : ε) (self : Runner σ) :
    (act impl environment self).1.commandReceiver = self.commandReceiver := by
  unfold act
  cases self.internalState with
  | Running => rcases impl.work environment self.state with ⟨state, _ | _ | next⟩ <;> rfl
  | Initialized => rfl
  | Paused => rfl
  | Stopped => rfl

theorem act_of_running (impl : State ε σ) (environment : ε) {self : Runner σ}
    (h : self.internalState = .Running) :
    (act impl environment self).2 = some (.work (impl.work environment self.state).2) ∧
      (act impl environment self).1.internalState =
        match (impl.work environment self.state).2 with
        | .Stop => .Stopped
        | _ => .Running := by
  unfold act
  rcases impl.work environment self.state with ⟨state, _ | _ | next⟩ <;> simp [h]

theorem act_of_stopped (impl : State ε σ) (environment : ε) {self : Runner σ}
    (h : self.internalState = .Stopped) :
    (act impl environment self).2 = some (.cleanup (act impl environment self).1.state) ∧
      (act impl environment self).1.internalState = .Stopped := by
  unfold act
  simp [h]

theorem act_of_waiting (impl : State ε σ) (environment : ε) {self : Runner σ}
    (h : self.internalState ≠ .Running) (h' : self.internalState ≠ .Stopped) :
    act impl environment self = (self, none) := by
  unfold act
  cases hstate : self.internalState <;> simp_all

end Iterations

end NetfabricBgp.StateMachines
