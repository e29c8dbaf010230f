import NetfabricBgp.MessageBuses
import NetfabricBgp.StateMachines

/-!
A state machine as its owner holds it, and its runner in a thread of its own. A command goes
into the channel of the runner when there is room, waits while there is none, and cannot be sent
once the runner has returned.
-/
namespace NetfabricBgp.StateMachineHandles

open RouterMasks MessageBuses StateMachines

inductive StateMachineError
  | MessageBusError (error : MessageBusError)
deriving DecidableEq

/-- The bound of the channel that `StateMachine::new` makes. -/
def COMMAND_CAPACITY : ℕ := 1

/-- Where a runner is: before it looks for a message, behind it, or out of its loop. -/
inductive Phase
  | receiving
  | acting
  | returned
deriving DecidableEq

/-- The runner is known by its thread, and holds the receiver of the commands until it returns.
It goes on only as long as it is not stopped. -/
structure StateMachine (σ : Type*) where
  runnerThreadId : Uuid
  runner : Runner σ
  phase : Phase
  looping : phase = .receiving → runner.internalState ≠ .Stopped

namespace StateMachine
variable {ε σ : Type*}

/-- The runner has not returned. -/
def alive (self : StateMachine σ) : Bool := self.phase ≠ .returned

/-- The machine with one more message in its channel. -/
def withMessage (self : StateMachine σ) (message : Message) : StateMachine σ :=
  { self with
    runner := { self.runner with
      commandReceiver := self.runner.commandReceiver ++ [message] } }

/-- A message on the bounded channel: nothing, if it has to wait. -/
def send (self : StateMachine σ) (message : Message) :
    Except StateMachineError (Option (StateMachine σ)) :=
  if self.alive then
    if self.runner.commandReceiver.length < COMMAND_CAPACITY then
      .ok (some (self.withMessage message))
    else .ok none
  else .error (.MessageBusError .SendError)

def sendCommand (self : StateMachine σ) (command : InternalState) :
    Except StateMachineError (Option (StateMachine σ)) := self.send (.command command)

def stop (self : StateMachine σ) : Except StateMachineError (Option (StateMachine σ)) :=
  self.sendCommand .Stopped

/-- The next step of the runner. Each iteration of its loop is two of them: it looks for a
message, and then it acts. -/
def advance (impl : State ε σ) (environment : ε) (self : StateMachine σ) : StateMachine σ :=
  match self.phase with
  | .receiving =>
    { self with runner := (receive self.runner []).2, phase := .acting, looping := nofun }
  | .acting =>
    let runner := (act impl environment self.runner).1
    if h : runner.internalState = .Stopped then
      { self with runner := runner, phase := .returned, looping := nofun }
    else { self with runner := runner, phase := .receiving, looping := fun _ => h }
  | .returned => self

/-- Another sender on the channel sends, if there is room. -/
def arrive (message : Message) (self : StateMachine σ) : StateMachine σ :=
  match self.send message with
  | .ok (some machine) => machine
  | _ => self

/-- As long as the runner has not returned, the command waits in its channel or has been taken. -/
def Told (self : StateMachine σ) : Prop :=
  self.alive = true →
    .command .Stopped ∈ self.runner.commandReceiver ∨ self.runner.internalState = .Stopped

/-- Nothing stops the runner: it has not been told to, and no message waits that would do it. -/
def Steady (self : StateMachine σ) : Prop :=
  self.alive = true → self.runner.internalState ≠ .Stopped ∧
    ∀ message ∈ self.runner.commandReceiver, message.effect ≠ .Stopped

section Steps
variable {impl : State ε σ} {environment : ε} {self : StateMachine σ}

theorem send_cases (self : StateMachine σ) (message : Message) :
    (self.alive = false ∧ self.send message = .error (.MessageBusError .SendError)) ∨
    (self.alive = true ∧ self.send message = .ok (some (self.withMessage message))) ∨
    (self.alive = true ∧ self.send message = .ok none) := by
  unfold send
  cases self.alive with
  | false => exact Or.inl ⟨rfl, rfl⟩
  | true =>
    by_cases hroom : self.runner.commandReceiver.length < COMMAND_CAPACITY
    · exact Or.inr (Or.inl ⟨rfl, by rw [if_pos rfl, if_pos hroom]⟩)
    · exact Or.inr (Or.inr ⟨rfl, by rw [if_pos rfl, if_neg hroom]⟩)

theorem arrive_cases (self : StateMachine σ) (message : Message) :
    self.arrive message = self ∨ self.arrive message = self.withMessage message := by
  unfold arrive
  rcases send_cases self message with ⟨-, hsend⟩ | ⟨-, hsend⟩ | ⟨-, hsend⟩
  · exact Or.inl (by rw [hsend])
  · exact Or.inr (by rw [hsend])
  · exact Or.inl (by rw [hsend])

/-- What a step of a runner does, by its phase. -/
theorem advance_cases (impl : State ε σ) (environment : ε) (self : StateMachine σ) :
    (self.phase = .receiving ∧
      (self.advance impl environment).runner = (receive self.runner []).2 ∧
      (self.advance impl environment).phase = .acting) ∨
    (self.phase = .acting ∧
      (self.advance impl environment).runner = (act impl environment self.runner).1 ∧
      ((self.advance impl environment).phase = .returned ↔
        (act impl environment self.runner).1.internalState = .Stopped)) ∨
    (self.alive = false ∧ self.advance impl environment = self) := by
  unfold advance alive
  split
  · rename_i hphase
    exact Or.inl ⟨hphase, rfl, rfl⟩
  · rename_i hphase
    refine Or.inr (Or.inl ⟨hphase, ?_⟩)
    by_cases hstopped : (act impl environment self.runner).1.internalState = .Stopped
    · rw [dif_pos hstopped]
      exact ⟨rfl, fun _ => hstopped, fun _ => rfl⟩
    · rw [dif_neg hstopped]
      exact ⟨rfl, nofun, fun h => absurd h hstopped⟩
  · rename_i hphase
    exact Or.inr (Or.inr ⟨by simp [hphase], rfl⟩)

/-- Two steps of a runner are an iteration of its loop. -/
theorem advance_advance (h : self.phase = .receiving) (environment' : ε) :
    ((self.advance impl environment').advance impl environment).runner =
      (iterate impl self.runner ⟨[], environment⟩).1 := by
  rcases advance_cases impl environment' self with ⟨-, hrunner, hphase⟩ | ⟨hphase, -⟩ |
    ⟨halive, -⟩
  · rcases advance_cases impl environment (self.advance impl environment') with
      ⟨hphase', -⟩ | ⟨-, hrunner', -⟩ | ⟨halive, -⟩
    · rw [hphase] at hphase'
      cases hphase'
    · rw [hrunner', hrunner]
      rfl
    · simp [alive, hphase] at halive
  · rw [h] at hphase
    cases hphase
  · simp [alive, h] at halive

theorem Told.withMessage (self : StateMachine σ) : (self.withMessage (.command .Stopped)).Told :=
  fun _ => Or.inl (List.mem_append_right _ List.mem_cons_self)

theorem Told.arrive (h : self.Told) (message : Message) : (self.arrive message).Told := by
  rcases arrive_cases self message with hsame | hmore
  · rwa [hsame]
  · rw [hmore]
    intro halive
    exact (h halive).imp_left (List.mem_append_left _)

/-- A runner takes the command before it can be told anything else. -/
theorem Told.advance (h : self.Told) (impl : State ε σ) (environment : ε) :
    (self.advance impl environment).Told := by
  intro halive
  rcases advance_cases impl environment self with ⟨hphase, hrunner, -⟩ |
    ⟨hphase, hrunner, hreturned⟩ | ⟨hended, hsame⟩
  · have hwaiting := (h (by simp [alive, hphase])).resolve_right (self.looping hphase)
    rw [hrunner]
    unfold receive
    rw [List.append_nil]
    cases hqueue : self.runner.commandReceiver with
    | nil =>
      rw [hqueue] at hwaiting
      cases hwaiting
    | cons message waiting =>
      rw [hqueue] at hwaiting
      rcases List.mem_cons.mp hwaiting with rfl | hlater
      · exact Or.inr rfl
      · exact Or.inl hlater
  · have hgoes : (act impl environment self.runner).1.internalState ≠ .Stopped := by
      intro hstopped
      have hphase' := hreturned.mpr hstopped
      simp [alive, hphase'] at halive
    rw [hrunner, act_commandReceiver]
    refine Or.inl ((h (by simp [alive, hphase])).resolve_right ?_)
    intro hstopped
    exact hgoes (act_of_stopped impl environment hstopped).2
  · rw [hsame] at halive
    rw [hended] at halive
    cases halive

theorem Steady.advance (h : self.Steady) (hworks : ∀ environment state,
    (impl.work environment state).2 ≠ .Stop) (environment : ε) :
    (self.advance impl environment).Steady ∧
      (self.advance impl environment).alive = self.alive := by
  rcases advance_cases impl environment self with ⟨hphase, hrunner, hphase'⟩ |
    ⟨hphase, hrunner, hreturned⟩ | ⟨-, hsame⟩
  · obtain ⟨hstate, hwaiting⟩ := h (by simp [alive, hphase])
    refine ⟨fun _ => ?_, by simp [alive, hphase, hphase']⟩
    rw [hrunner]
    unfold receive
    rw [List.append_nil]
    cases hqueue : self.runner.commandReceiver with
    | nil => exact ⟨hstate, by simp⟩
    | cons message waiting =>
      rw [hqueue] at hwaiting
      exact ⟨hwaiting message List.mem_cons_self,
        fun later hlater => hwaiting later (List.mem_cons_of_mem _ hlater)⟩
  · obtain ⟨hstate, hwaiting⟩ := h (by simp [alive, hphase])
    have hstate' : (act impl environment self.runner).1.internalState ≠ .Stopped := by
      by_cases hrunning : self.runner.internalState = .Running
      · rw [(act_of_running impl environment hrunning).2]
        split
        · rename_i hstop
          exact absurd hstop (hworks environment self.runner.state)
        · exact nofun
      · rwa [act_of_waiting impl environment hrunning hstate]
    have hphase' : (self.advance impl environment).phase ≠ .returned :=
      fun hended => hstate' (hreturned.mp hended)
    refine ⟨fun _ => ?_, by simp [alive, hphase, hphase']⟩
    rw [hrunner, act_commandReceiver]
    exact ⟨hstate', hwaiting⟩
  · rw [hsame]
    exact ⟨h, rfl⟩

end Steps

end StateMachine

end NetfabricBgp.StateMachineHandles
