import NetfabricBgp.StateMachines

/-!
Whole runs of a state machine's runner. The internal state of an iteration is the effect
of the last message received, so the runner works only after the command Running. A run
ends with the cleanup, or with a state that asked to stop and is never cleaned up.
-/
namespace NetfabricBgp.RunnerTurns

open Loops StateMachines

section Turns
variable {ε σ : Type*}

def Works (turn : Turn σ) : Prop := ∃ transition, turn.call = some (.work transition)

def Cleans (turn : Turn σ) : Prop := ∃ result, turn.call = some (.cleanup result)

def lastReceived (log : List (Turn σ)) : Option Message := (log.filterMap Turn.received).getLast?

/-- The internal state that the last message leads to. -/
def modeAfter (last : Option Message) : InternalState := (last.map Message.effect).getD .Initialized

theorem lastReceived_append (log log' : List (Turn σ)) :
    lastReceived (log ++ log') = (lastReceived log').or (lastReceived log) := by
  rw [lastReceived, List.filterMap_append, List.getLast?_append]
  rfl

theorem lastReceived_singleton (turn : Turn σ) : lastReceived [turn] = turn.received := by
  unfold lastReceived
  cases h : turn.received <;> simp [h]

theorem exists_of_lastReceived {log : List (Turn σ)} {message : Message}
    (h : lastReceived log = some message) : ∃ turn ∈ log, turn.received = some message :=
  List.mem_filterMap.mp (List.mem_of_getLast? h)

theorem received_of_modeAfter {last : Option Message} (h : modeAfter last = .Running) :
    last = some (.command .Running) := by
  rcases last with _ | ⟨internalState⟩ | _
  · cases h
  · obtain rfl : internalState = .Running := h
    rfl
  · cases h

theorem modeAfter_or (received last : Option Message) :
    modeAfter (received.or last) = (received.map Message.effect).getD (modeAfter last) := by
  cases received <;> rfl

end Turns

section Iterations
variable {ε σ : Type*} (impl : State ε σ) (self : Runner σ) (i : Iteration ε)

theorem iterate_internalState :
    (iterate impl self i).2.internalState =
      ((iterate impl self i).2.received.map Message.effect).getD self.internalState :=
  receive_internalState self i.arriving

theorem works_iterate_iff :
    Works (iterate impl self i).2 ↔ (iterate impl self i).2.internalState = .Running := by
  show (∃ t, (act impl i.environment (receive self i.arriving).2).2 = some (.work t)) ↔
    (receive self i.arriving).2.internalState = .Running
  cases hstate : (receive self i.arriving).2.internalState with
  | Running => simp [(act_of_running impl i.environment hstate).1]
  | Initialized => simp [act_of_waiting impl i.environment, hstate]
  | Paused => simp [act_of_waiting impl i.environment, hstate]
  | Stopped => simp [(act_of_stopped impl i.environment hstate).1]

/-- The runner goes on in the internal state it acted on, unless it stops. -/
theorem next_internalState :
    (iterate impl self i).1.internalState = .Stopped ∨
      (iterate impl self i).1.internalState = (iterate impl self i).2.internalState := by
  show (act impl i.environment (receive self i.arriving).2).1.internalState = _ ∨
    (act impl i.environment (receive self i.arriving).2).1.internalState =
      (receive self i.arriving).2.internalState
  cases hstate : (receive self i.arriving).2.internalState with
  | Running =>
    rw [(act_of_running impl i.environment hstate).2]
    cases (impl.work i.environment (receive self i.arriving).2.state).2 <;> simp
  | Initialized => simp [act_of_waiting impl i.environment, hstate]
  | Paused => simp [act_of_waiting impl i.environment, hstate]
  | Stopped => simp [(act_of_stopped impl i.environment hstate).2]

theorem stopped_of_effect {message : Message} (hreceived : (iterate impl self i).2.received =
    some message) (heffect : message.effect = .Stopped) :
    (iterate impl self i).1.internalState = .Stopped := by
  have hstate := iterate_internalState impl self i
  rw [hreceived, Option.map_some, Option.getD_some, heffect] at hstate
  rcases next_internalState impl self i with hnext | hnext
  · exact hnext
  · rw [hnext, hstate]

end Iterations

section Modes
variable {ε σ : Type*} {impl : State ε σ} {state : σ} {iterations : List (Iteration ε)}

theorem stopped_eq_false_iff {self : Runner σ} :
    stopped self = false ↔ self.internalState ≠ .Stopped := decide_eq_false_iff_not

/-- The internal state of a runner that lives is the effect of the last message. -/
theorem internalState_runner (h : stopped (runner impl state iterations).1 = false) :
    (runner impl state iterations).1.internalState =
      modeAfter (lastReceived (runner impl state iterations).2) := by
  refine history (fun s _ outs => stopped s = false →
    s.internalState = modeAfter (lastReceived outs)) ?_ (fun _ => rfl) iterations h
  intro s ins outs i halive ih hnext
  rw [lastReceived_append, lastReceived_singleton, modeAfter_or, ← ih halive,
    ← iterate_internalState impl s i]
  exact (next_internalState impl s i).resolve_left (stopped_eq_false_iff.mp hnext)

theorem internalState_turn {before after : List (Turn σ)} {turn : Turn σ}
    (h : (runner impl state iterations).2 = before ++ turn :: after) :
    turn.internalState = modeAfter (lastReceived (before ++ [turn])) := by
  obtain ⟨l₁, i, l₂, -, rfl, halive, rfl, -⟩ := log_eq_append_cons h
  rw [lastReceived_append, lastReceived_singleton, modeAfter_or,
    iterate_internalState]
  exact congrArg _ (internalState_runner halive)

theorem works_turn_iff {turn : Turn σ} (h : turn ∈ (runner impl state iterations).2) :
    Works turn ↔ turn.internalState = .Running := by
  obtain ⟨before, i, after, -, -, rfl⟩ := mem_log_iff.mp h
  exact works_iterate_iff impl _ i

end Modes

section Commands
variable {ε σ : Type*} {impl : State ε σ} {state : σ} {iterations : List (Iteration ε)}

/-- What a run does with the messages of the command channel: work follows the command
Running alone, the messages act in the order sent, one per iteration, and a runner that lives has
gone through every iteration. -/
structure FollowsCommands (iterations : List (Iteration ε)) (final : Runner σ)
    (log : List (Turn σ)) : Prop where
  works_iff : ∀ turn ∈ log, Works turn ↔ turn.internalState = .Running
  acts : ∀ before turn after, log = before ++ turn :: after →
    turn.internalState = modeAfter (lastReceived (before ++ [turn]))
  running : ∀ before turn after, log = before ++ turn :: after → Works turn →
    lastReceived (before ++ [turn]) = some (.command .Running)
  started : ∀ before after, log = before ++ after →
    (∀ turn ∈ before, turn.received ≠ some (.command .Running)) → ∀ turn ∈ before, ¬ Works turn
  paused : ∀ before pause waiting after, log = before ++ pause :: waiting ++ after →
    pause.received = some (.command .Paused) →
    (∀ turn ∈ waiting, turn.received ≠ some (.command .Running)) →
    ∀ turn ∈ pause :: waiting, ¬ Works turn
  ended : ∀ before last after, log = before ++ last :: after →
    last.received = some (.command .Stopped) ∨ last.received = some .foreign →
    after = [] ∧ ¬ Works last
  ordered : log.filterMap Turn.received ++ final.commandReceiver =
    (iterations.take log.length).flatMap Iteration.arriving
  unskipped : ∀ before turn after, log = before ++ turn :: after → turn.received = none →
    before.filterMap Turn.received =
      (iterations.take (before.length + 1)).flatMap Iteration.arriving
  lasting : stopped final = false → log.length = iterations.length

theorem running_of_works {before after : List (Turn σ)} {turn : Turn σ}
    (h : (runner impl state iterations).2 = before ++ turn :: after) (hworks : Works turn) :
    lastReceived (before ++ [turn]) = some (.command .Running) := by
  have hmem : turn ∈ (runner impl state iterations).2 := by
    rw [h]
    exact List.mem_append_right _ List.mem_cons_self
  apply received_of_modeAfter
  rw [← internalState_turn h]
  exact (works_turn_iff hmem).mp hworks

/-- In a stretch that receives no Running and starts with a message, or starts the log,
nothing works. -/
theorem not_works_of_stretch {before stretch after : List (Turn σ)}
    (h : (runner impl state iterations).2 = before ++ stretch ++ after)
    (hfirst : before = [] ∨ ∃ first rest message, stretch = first :: rest ∧
      first.received = some message)
    (hnone : ∀ turn ∈ stretch, turn.received ≠ some (.command .Running)) :
    ∀ turn ∈ stretch, ¬ Works turn := by
  intro turn hturn hworks
  obtain ⟨front, back, rfl⟩ := List.mem_iff_append.mp hturn
  have hlog : (runner impl state iterations).2 = (before ++ front) ++ turn :: (back ++ after) := by
    rw [h]
    simp only [List.append_assoc, List.cons_append]
  have hlast : lastReceived (before ++ (front ++ [turn])) = some (.command .Running) := by
    rw [← List.append_assoc]
    exact running_of_works hlog hworks
  have hlocal : lastReceived (front ++ [turn]) ≠ some (.command .Running) := by
    intro hrunning
    obtain ⟨other, hother, hreceived⟩ := exists_of_lastReceived hrunning
    refine hnone other ?_ hreceived
    simp only [List.mem_append, List.mem_cons] at hother ⊢
    tauto
  rw [lastReceived_append] at hlast
  cases hstretch : lastReceived (front ++ [turn]) with
  | some message =>
    rw [hstretch, Option.some_or] at hlast
    exact hlocal (hstretch.trans hlast)
  | none =>
    rw [hstretch] at hlast
    rcases hfirst with rfl | ⟨first, rest, message, hcons, hreceived⟩
    · cases hlast
    · have hmem : first ∈ front ++ [turn] := by
        cases front with
        | nil => simp_all
        | cons other front => simp_all
      have hnil := List.getLast?_eq_none_iff.mp hstretch
      exact List.not_mem_nil (hnil ▸ List.mem_filterMap.mpr ⟨first, hmem, hreceived⟩)

theorem after_stop {before after : List (Turn σ)} {last : Turn σ} {message : Message}
    (h : (runner impl state iterations).2 = before ++ last :: after)
    (hreceived : last.received = some message) (heffect : message.effect = .Stopped) :
    after = [] ∧ ¬ Works last := by
  obtain ⟨l₁, i, l₂, -, -, halive, rfl, rfl⟩ := log_eq_append_cons h
  constructor
  · have hstopped : stopped (iterate impl _ i).1 = true :=
      decide_eq_true (stopped_of_effect impl _ i hreceived heffect)
    rw [loop_of_halted hstopped]
  · rw [works_iterate_iff, iterate_internalState, hreceived, Option.map_some, Option.getD_some,
      heffect]
    intro hrunning
    cases hrunning

theorem head?_append_tail {α : Type*} (l : List α) : l.head?.toList ++ l.tail = l := by
  cases l <;> rfl

theorem ordered_runner :
    (runner impl state iterations).2.filterMap Turn.received ++
        (runner impl state iterations).1.commandReceiver =
      (iterations.take (runner impl state iterations).2.length).flatMap Iteration.arriving := by
  refine history (fun (s : Runner σ) ins outs =>
    outs.filterMap Turn.received ++ s.commandReceiver = ins.flatMap Iteration.arriving) ?_ rfl _
  intro s ins outs i _ ih
  have hreceived : (iterate impl s i).2.received = (s.commandReceiver ++ i.arriving).head? :=
    receive_fst s i.arriving
  have hwaiting : (iterate impl s i).1.commandReceiver =
      (s.commandReceiver ++ i.arriving).tail :=
    (act_commandReceiver impl i.environment _).trans (receive_commandReceiver s i.arriving)
  have hone : [(iterate impl s i).2].filterMap Turn.received =
      (s.commandReceiver ++ i.arriving).head?.toList := by
    rw [← hreceived]
    cases h : (iterate impl s i).2.received <;> simp [h]
  rw [List.filterMap_append, List.flatMap_append, ← ih, hone, hwaiting, List.append_assoc,
    head?_append_tail]
  simp

theorem unskipped_runner {before after : List (Turn σ)} {turn : Turn σ}
    (h : (runner impl state iterations).2 = before ++ turn :: after)
    (hnone : turn.received = none) :
    before.filterMap Turn.received =
      (iterations.take (before.length + 1)).flatMap Iteration.arriving := by
  obtain ⟨l₁, i, l₂, rfl, rfl, halive, rfl, -⟩ := log_eq_append_cons h
  have hempty : (runner impl state l₁).1.commandReceiver ++ i.arriving = [] :=
    List.head?_eq_none_iff.mp ((receive_fst _ i.arriving).symm.trans hnone)
  obtain ⟨hqueue, harriving⟩ := List.append_eq_nil_iff.mp hempty
  have hordered := @ordered_runner _ _ impl state l₁
  have hlength : (runner impl state l₁).2.length = l₁.length := length_log_of_running halive
  rw [hqueue, List.append_nil, hlength, List.take_length] at hordered
  have htake : (l₁ ++ i :: l₂).take (l₁.length + 1) = l₁ ++ [i] := by
    rw [List.take_append, List.take_of_length_le (by omega)]
    simp
  have hlength' : (loop stopped (iterate impl) ⟨[], .Initialized, state⟩ l₁).2.length =
      l₁.length := hlength
  rw [hlength', htake, List.flatMap_append, ← hordered]
  simp [harriving, runner]

/-- Every run of the runner works only under the command Running and takes the messages of
its channel one by one in the order sent. -/
theorem followsCommands (impl : State ε σ) (state : σ) (iterations : List (Iteration ε)) :
    FollowsCommands iterations (runner impl state iterations).1
      (runner impl state iterations).2 where
  works_iff := fun _ => works_turn_iff
  acts := fun _ _ _ => internalState_turn
  running := fun _ _ _ => running_of_works
  started := by
    intro before after h hnone
    exact @not_works_of_stretch _ _ _ _ _ [] _ _ (by simpa using h) (Or.inl rfl) hnone
  paused := by
    intro before pause waiting after h hpause hnone
    refine not_works_of_stretch h (Or.inr ⟨pause, waiting, _, rfl, hpause⟩) ?_
    intro turn hturn
    rcases List.mem_cons.mp hturn with rfl | hwaiting
    · simp [hpause]
    · exact hnone turn hwaiting
  ended := by
    intro before last after h hreceived
    rcases hreceived with hreceived | hreceived
    · exact after_stop h hreceived rfl
    · exact after_stop h hreceived rfl
  ordered := ordered_runner
  unskipped := fun _ _ _ => unskipped_runner
  lasting := length_log_of_running

end Commands

section Cleanups
variable {ε σ : Type*} {impl : State ε σ} {state : σ} {iterations : List (Iteration ε)}

/-- One turn cleans up, it is the last one, and it leaves the state that is returned. -/
def CleansUpOnce (final : Runner σ) (log : List (Turn σ)) : Prop :=
  ∃ before last, log = before ++ [last] ∧ last.call = some (.cleanup final.state) ∧
    ∀ turn ∈ before, ¬ Cleans turn

/-- The iteration works, and the work asks to stop. -/
def Quits (impl : State ε σ) (self : Runner σ) (i : Iteration ε) : Prop :=
  stopped self = false ∧ (receive self i.arriving).2.internalState = .Running ∧
    (impl.work i.environment self.state).2 = .Stop

theorem quits_iff (impl : State ε σ) (self : Runner σ) (i : Iteration ε)
    (halive : stopped self = false) :
    Quits impl self i ↔ (iterate impl self i).2.call = some (.work .Stop) := by
  have hcall : (iterate impl self i).2.call =
    (act impl i.environment (receive self i.arriving).2).2 := rfl
  rw [Quits, hcall]
  cases hstate : (receive self i.arriving).2.internalState with
  | Running => simp [(act_of_running impl i.environment hstate).1, receive_state, halive]
  | Initialized => simp [act_of_waiting impl i.environment, hstate]
  | Paused => simp [act_of_waiting impl i.environment, hstate]
  | Stopped => simp [(act_of_stopped impl i.environment hstate).1]

/-- A turn that leaves the runner alive neither cleans up nor asks to stop, and any other
turn does one of the two. -/
theorem iterate_ends (impl : State ε σ) (self : Runner σ) (i : Iteration ε) :
    (stopped (iterate impl self i).1 = false ∧ ¬ Cleans (iterate impl self i).2 ∧
      (iterate impl self i).2.call ≠ some (.work .Stop)) ∨
    (stopped (iterate impl self i).1 = true ∧
      ((iterate impl self i).2.call = some (.cleanup (iterate impl self i).1.state) ∨
        (iterate impl self i).2.call = some (.work .Stop))) := by
  have hcall : (iterate impl self i).2.call =
    (act impl i.environment (receive self i.arriving).2).2 := rfl
  have hnext : (iterate impl self i).1 =
    (act impl i.environment (receive self i.arriving).2).1 := rfl
  rw [Cleans, stopped, hcall, hnext]
  cases hstate : (receive self i.arriving).2.internalState with
  | Running =>
    rw [(act_of_running impl i.environment hstate).1, (act_of_running impl i.environment hstate).2]
    cases (impl.work i.environment (receive self i.arriving).2.state).2 <;> simp
  | Initialized => simp [act_of_waiting impl i.environment, hstate]
  | Paused => simp [act_of_waiting impl i.environment, hstate]
  | Stopped =>
    obtain ⟨hcleanup, hstopped⟩ := act_of_stopped impl i.environment hstate
    right
    exact ⟨decide_eq_true hstopped, Or.inl hcleanup⟩

/-- How a log ends: only its last turn may clean up or ask to stop, and it does one of the
two when the runner has returned. -/
def Ends (final : Runner σ) (log : List (Turn σ)) : Prop :=
  (stopped final = false ∧ ∀ turn ∈ log, ¬ Cleans turn ∧ turn.call ≠ some (.work .Stop)) ∨
    (stopped final = true ∧ ∃ before last, log = before ++ [last] ∧
      (∀ turn ∈ before, ¬ Cleans turn ∧ turn.call ≠ some (.work .Stop)) ∧
      (last.call = some (.cleanup final.state) ∨ last.call = some (.work .Stop)))

theorem ends_runner : Ends (runner impl state iterations).1 (runner impl state iterations).2 := by
  refine history (fun s _ outs => Ends s outs) ?_ (Or.inl ⟨rfl, by simp⟩) iterations
  intro s ins outs i halive hends
  rcases hends with ⟨-, hnone⟩ | ⟨hstopped, -⟩
  · rcases iterate_ends impl s i with ⟨hnext, hturn⟩ | ⟨hnext, hturn⟩
    · left
      refine ⟨hnext, ?_⟩
      intro turn hmem
      rcases List.mem_append.mp hmem with hmem | hmem
      · exact hnone turn hmem
      · obtain rfl := List.mem_singleton.mp hmem
        exact hturn
    · right
      exact ⟨hnext, outs, _, rfl, hnone, hturn⟩
  · rw [halive] at hstopped
    cases hstopped

/-- A run that returned has cleaned up exactly once, last, unless a state asked to stop. -/
theorem cleansUpOnce_iff (impl : State ε σ) (state : σ) (iterations : List (Iteration ε))
    (hreturned : (runner impl state iterations).1.internalState = .Stopped) :
    CleansUpOnce (runner impl state iterations).1 (runner impl state iterations).2 ↔
      ∀ before i after, iterations = before ++ i :: after →
        ¬ Quits impl (runner impl state before).1 i := by
  have hstopped : stopped (runner impl state iterations).1 = true := decide_eq_true hreturned
  rcases @ends_runner _ _ impl state iterations with
    ⟨halive, -⟩ | ⟨-, before, last, hlog, hnone, hlast⟩
  · rw [hstopped] at halive
    cases halive
  · constructor
    · intro hclean front i back hsplit hquits
      obtain ⟨before', last', hlog', hlast', -⟩ := hclean
      obtain ⟨rfl, hlasts⟩ := List.append_inj' (hlog.symm.trans hlog') rfl
      obtain rfl := List.singleton_inj.mp hlasts
      have hstop := (quits_iff impl _ i hquits.1).mp hquits
      have hmem : (iterate impl (runner impl state front).1 i).2 ∈
          (runner impl state iterations).2 :=
        mem_log_iff.mpr ⟨front, i, back, hsplit, hquits.1, rfl⟩
      rw [hlog] at hmem
      rcases List.mem_append.mp hmem with hmem | hmem
      · exact (hnone _ hmem).2 hstop
      · rw [List.mem_singleton.mp hmem, hlast'] at hstop
        cases hstop
    · intro hquits
      refine ⟨before, last, hlog, ?_, fun turn hturn => (hnone turn hturn).1⟩
      refine hlast.resolve_right ?_
      intro hstop
      have hmem : last ∈ (runner impl state iterations).2 := by
        rw [hlog]
        exact List.mem_append_right _ List.mem_cons_self
      obtain ⟨front, i, back, hsplit, halive, rfl⟩ := mem_log_iff.mp hmem
      exact hquits front i back hsplit ((quits_iff impl _ i halive).mpr hstop)

/-- A counter that hands over to a result, and the result that asks to stop. -/
inductive SampleState
  | counter (data : ℕ)
  | result (value : ℕ)
deriving DecidableEq

def SampleState.methods : State Unit SampleState where
  work := fun _ state =>
    match state with
    | .counter 0 => (.counter 0, .Transition (.result 0))
    | .counter (data + 1) => (.counter data, .Continue)
    | .result value => (.result value, .Stop)
  cleanup := fun _ state => state

theorem cleansUpOnce_iff_stopped :
    CleansUpOnce (runner SampleState.methods (.counter 7)
        [⟨[.command .Running], ()⟩, ⟨[.command .Stopped], ()⟩]).1
      (runner SampleState.methods (.counter 7)
        [⟨[.command .Running], ()⟩, ⟨[.command .Stopped], ()⟩]).2 ↔
      ∀ before i after, [⟨[.command .Running], ()⟩, ⟨[.command .Stopped], ()⟩] =
          before ++ i :: after →
        ¬ Quits SampleState.methods (runner SampleState.methods (.counter 7) before).1 i :=
  cleansUpOnce_iff SampleState.methods (.counter 7) _ rfl

/-- The counter is started and runs to its result, which ends the run without a cleanup. -/
theorem not_cleansUpOnce_result :
    (runner SampleState.methods (.counter 0) [⟨[.command .Running], ()⟩, ⟨[], ()⟩]).1 =
      ⟨[], .Stopped, .result 0⟩ ∧
    ¬ CleansUpOnce (runner SampleState.methods (.counter 0) [⟨[.command .Running], ()⟩, ⟨[], ()⟩]).1
      (runner SampleState.methods (.counter 0) [⟨[.command .Running], ()⟩, ⟨[], ()⟩]).2 := by
  refine ⟨rfl, ?_⟩
  intro hclean
  obtain ⟨before, last, hlog, hlast, -⟩ := hclean
  have hturns : [⟨some (.command .Running), .Running, some (.work (.Transition (.result 0)))⟩] ++
      [⟨none, .Running, some (.work .Stop)⟩] = before ++ [last] := hlog
  obtain ⟨-, hlasts⟩ := List.append_inj' hturns rfl
  obtain rfl := List.singleton_inj.mp hlasts
  cases hlast

end Cleanups

end NetfabricBgp.RunnerTurns
