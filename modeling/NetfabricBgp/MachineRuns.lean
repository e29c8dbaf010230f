import NetfabricBgp.RouterMachines
import NetfabricBgp.ThreadHistories

/-!
Runs of a started network. What the machines do is a run of their threads, so whatever holds of
every interleaving of the threads holds of the started network. A machine works on one process
at a time, and the threads of its other processes are between two cycles.
-/
namespace NetfabricBgp.MachineRuns

open RouterMasks Ribs Advertisements Channels StateMachines StateMachineHandles Interfaces
  Processes Supplies ProcessThreads ThreadSteps ThreadHistories RouterMachines

section Inversion
variable {forms : TextForms} {κ : Type*} [DecidableEq κ] {state state' : Machines κ}
  {event : RouterMachines.Event κ} {report : Option (Report κ)}

/-- An event that ends in this state, with this report. -/
inductive MachineMoves (forms : TextForms) (state : Machines κ) :
    RouterMachines.Event κ → Machines κ → Option (Report κ) → Prop
  | idle (event : RouterMachines.Event κ) : MachineMoves forms state event state none
  | failed (id : κ) (command : InternalState) (machine : Machine)
      (hmachine : state.machine id = some machine) (hended : stopped machine.runner = true) :
      MachineMoves forms state (.command id command) state (some (.failed id command))
  | commanded (id : κ) (command : InternalState) (machine : Machine)
      (hmachine : state.machine id = some machine) (halive : stopped machine.runner = false)
      (hroom : machine.runner.commandReceiver = []) :
      MachineMoves forms state (.command id command)
        (setMachine state id (machine.withCommand command)) (some (.commanded id command))
  | turned (id : κ) (machine : Machine) (hmachine : state.machine id = some machine)
      (hposition : machine.position = .between) (halive : stopped machine.runner = false) :
      MachineMoves forms state (.turn id) (setMachine state id machine.turn)
        (some (.turned id machine.turn.runner.internalState))
  | worked (id : κ) (instant : Instant) (machine : Machine) (n : ℕ) (threads : Threads (κ × ℕ))
      (entry : Option (Option (κ × ℕ) × Effect)) (hmachine : state.machine id = some machine)
      (hposition : machine.position = .working n)
      (hstep : ProcessThreads.step forms state.threads (.act (id, n) instant) =
        .ok (threads, entry)) :
      MachineMoves forms state (.work id instant)
        (setMachine ⟨state.machine, threads⟩ id (machine.after n (threads.thread (id, n))))
        (entry.map .effect)
  | outside (event : RouterMachines.Event κ) (inner : ProcessThreads.Event (κ × ℕ))
      (threads : Threads (κ × ℕ)) (entry : Option (Option (κ × ℕ) × Effect))
      (houtside : ∀ i instant, inner ≠ .act i instant)
      (hstep : ProcessThreads.step forms state.threads inner = .ok (threads, entry)) :
      MachineMoves forms state event ⟨state.machine, threads⟩ (entry.map .effect)

theorem sendCommand_cases (machine : Machine) (command : InternalState) :
    (stopped machine.runner = true ∧
      machine.sendCommand command = .error (.MessageBusError .SendError)) ∨
    (stopped machine.runner = false ∧ machine.runner.commandReceiver = [] ∧
      machine.sendCommand command = .ok (some (machine.withCommand command))) ∨
    (stopped machine.runner = false ∧ machine.sendCommand command = .ok none) := by
  unfold Machine.sendCommand
  by_cases hended : stopped machine.runner = true
  · exact Or.inl ⟨hended, if_pos hended⟩
  · have halive := Bool.eq_false_iff.mpr hended
    rw [if_neg hended]
    by_cases hroom : machine.runner.commandReceiver.length < COMMAND_CAPACITY
    · have hnil := List.length_eq_zero_iff.mp (Nat.lt_one_iff.mp hroom)
      exact Or.inr (Or.inl ⟨halive, hnil, if_pos hroom⟩)
    · exact Or.inr (Or.inr ⟨halive, if_neg hroom⟩)

theorem onThreads_ok {inner : ProcessThreads.Event (κ × ℕ)}
    (h : onThreads forms state inner = .ok (state', report)) :
    ∃ threads entry, ProcessThreads.step forms state.threads inner = .ok (threads, entry) ∧
      state' = ⟨state.machine, threads⟩ ∧ report = entry.map .effect := by
  unfold onThreads at h
  rcases hstep : ProcessThreads.step forms state.threads inner with panic | ⟨threads, entry⟩
  · simp [hstep] at h
  · simp only [hstep, Except.ok.injEq, Prod.mk.injEq] at h
    obtain ⟨rfl, rfl⟩ := h
    exact ⟨threads, entry, rfl, rfl, rfl⟩

theorem machineMoves_of_step (h : RouterMachines.step forms state event = .ok (state', report)) :
    MachineMoves forms state event state' report := by
  cases event with
  | command id command =>
    simp only [RouterMachines.step] at h
    cases hmachine : state.machine id with
    | none =>
      simp only [hmachine, Except.ok.injEq, Prod.mk.injEq] at h
      obtain ⟨rfl, rfl⟩ := h
      exact .idle _
    | some machine =>
      simp only [hmachine] at h
      rcases sendCommand_cases machine command with ⟨hended, hsend⟩ | ⟨halive, hroom, hsend⟩ |
        ⟨halive, hsend⟩
      · simp only [hsend, Except.ok.injEq, Prod.mk.injEq] at h
        obtain ⟨rfl, rfl⟩ := h
        exact .failed id command machine hmachine hended
      · simp only [hsend, Except.ok.injEq, Prod.mk.injEq] at h
        obtain ⟨rfl, rfl⟩ := h
        exact .commanded id command machine hmachine halive hroom
      · simp only [hsend, Except.ok.injEq, Prod.mk.injEq] at h
        obtain ⟨rfl, rfl⟩ := h
        exact .idle _
  | turn id =>
    simp only [RouterMachines.step] at h
    cases hmachine : state.machine id with
    | none =>
      simp only [hmachine, Except.ok.injEq, Prod.mk.injEq] at h
      obtain ⟨rfl, rfl⟩ := h
      exact .idle _
    | some machine =>
      simp only [hmachine] at h
      by_cases hready : machine.position = .between ∧ stopped machine.runner = false
      · rw [if_pos hready] at h
        obtain ⟨rfl, rfl⟩ := Prod.mk.inj (Except.ok.inj h)
        exact .turned id machine hmachine hready.1 hready.2
      · rw [if_neg hready] at h
        obtain ⟨rfl, rfl⟩ := Prod.mk.inj (Except.ok.inj h)
        exact .idle _
  | work id instant =>
    simp only [RouterMachines.step] at h
    cases hmachine : state.machine id with
    | none =>
      simp only [hmachine, Except.ok.injEq, Prod.mk.injEq] at h
      obtain ⟨rfl, rfl⟩ := h
      exact .idle _
    | some machine =>
      cases hposition : machine.position with
      | between =>
        simp only [hmachine, hposition, Except.ok.injEq, Prod.mk.injEq] at h
        obtain ⟨rfl, rfl⟩ := h
        exact .idle _
      | working n =>
        simp only [hmachine, hposition, work] at h
        rcases hthreads : onThreads forms state (.act (id, n) instant) with panic | ⟨next, report'⟩
        · simp [hthreads] at h
        · obtain ⟨threads, entry, hmoves, rfl, rfl⟩ := onThreads_ok hthreads
          simp only [hthreads, Except.ok.injEq, Prod.mk.injEq] at h
          obtain ⟨rfl, rfl⟩ := h
          exact .worked id instant machine n threads entry hmachine hposition hmoves
  | arrive channel message =>
    obtain ⟨threads, entry, hmoves, rfl, rfl⟩ := onThreads_ok h
    exact .outside _ (.arrive channel message) threads entry (fun _ _ heq => by cases heq) hmoves
  | leave channel =>
    obtain ⟨threads, entry, hmoves, rfl, rfl⟩ := onThreads_ok h
    exact .outside _ (.leave channel) threads entry (fun _ _ heq => by cases heq) hmoves

theorem run_cons {rest : List (RouterMachines.Event κ)} {log : List (Report κ)}
    (h : RouterMachines.run forms state (event :: rest) = .ok (state', log)) :
    ∃ next report later, MachineMoves forms state event next report ∧
      RouterMachines.run forms next rest = .ok (state', later) ∧ log = report.toList ++ later := by
  obtain ⟨next, report, later, hstep, hrest, hlog⟩ := Runs.collect_cons_ok.mp h
  exact ⟨next, report, later, machineMoves_of_step hstep, hrest, hlog⟩

end Inversion

/-- The effect that a report tells of. -/
def Report.entry {κ : Type*} : Report κ → Option (Option (κ × ℕ) × Effect)
  | .effect entry => some entry
  | _ => none

/-- The effects of the threads, in the order of the log. -/
def effectsOf {κ : Type*} (log : List (Report κ)) : List (Option (κ × ℕ) × Effect) :=
  log.filterMap Report.entry

/-- As `Thread.start` makes it. -/
def Resting (self : Thread) : Prop := self.stage = .receive 0 ∧ self.received = []

/-- What the sessions have received is handed over before the updates begin. -/
def Cleared (self : Thread) : Prop := ¬ Hearing self.stage → self.received = []

/-- A machine has at most one command waiting, and works only while it is told to run. All its
threads but the one it works on are between two cycles. -/
structure OrderlyAt {κ : Type*} (threads : Threads (κ × ℕ)) (id : κ) (machine : Machine) :
    Prop where
  hosted : ∀ n, n < machine.processes ↔ ∃ self, threads.thread (id, n) = some self
  room : machine.runner.commandReceiver.length ≤ COMMAND_CAPACITY
  working : ∀ n, machine.position = .working n →
    n < machine.processes ∧ machine.runner.internalState = .Running
  resting : ∀ n self, threads.thread (id, n) = some self → machine.position ≠ .working n →
    Resting self

structure Orderly {κ : Type*} (state : Machines κ) : Prop where
  machines : ∀ id machine, state.machine id = some machine → OrderlyAt state.threads id machine
  cleared : ∀ place self, state.threads.thread place = some self → Cleared self

section Cycles
variable {forms : TextForms} {instant : Instant} {shared shared' : Shared} {self self' : Thread}
  {effect : Option Effect}

theorem cycleOver_iff {thread : Option Thread} :
    cycleOver thread = true ↔ ∀ self, thread = some self → self.stage = .receive 0 := by
  cases thread with
  | none => simp [cycleOver]
  | some self =>
    unfold cycleOver
    constructor
    · intro h other hother
      obtain rfl := Option.some.inj hother
      rcases hstage : self.stage with (_ | n) | _ | _ | _ | _ | _ <;> simp [hstage] at h
      rfl
    · intro h
      simp [h self rfl]

theorem cleared_of_steps (h : Cleared self)
    (hsteps : Steps forms instant shared self shared' self' effect) : Cleared self' := by
  have hpast : ¬ Hearing self.stage → self'.received = self.received → Cleared self' := by
    intro hhearing hsame _
    rw [hsame]
    exact h hhearing
  cases hsteps with
  | receiveDone n hstage hlen => exact fun _ => rfl
  | receiveUnset | receiveTimedOut | receiveBegin | collect | take | discardForeign | discardFull =>
    exact fun hnot => absurd trivial hnot
  | updateDone hstage | skip ad rest hstage | apply ad rest rib ribInterface hstage
  | publish hstage | sendUnset n hstage | sendNothing n interface hstage
  | sendBegin n interface hstage | sendDone n hstage | sendingDone n rest hstage
  | filterOut n interface ad rest hstage | put n interface ad rest id channel hstage
  | refuse n interface ad rest id e hstage =>
    exact hpast (by rw [hstage]; exact not_false) rfl

/-- A cycle ends behind the last session's sending, with nothing left over. -/
theorem sent_of_cycleOver (hsteps : Steps forms instant shared self shared' self' effect)
    (hover : self'.stage = .receive 0) :
    (∃ n, self.stage = .send n) ∧ effect = none ∧ self'.received = self.received := by
  cases hsteps with
  | sendDone n hstage hlen => exact ⟨⟨n, hstage⟩, rfl, rfl⟩
  | _ => cases hover

theorem resting_of_cycleOver (h : Cleared self)
    (hsteps : Steps forms instant shared self shared' self' effect)
    (hover : self'.stage = .receive 0) : Resting self' := by
  obtain ⟨⟨n, hstage⟩, -, hsame⟩ := sent_of_cycleOver hsteps hover
  refine ⟨hover, hsame.trans (h ?_)⟩
  rw [hstage]
  exact not_false

end Cycles

section Machines
variable {machine : Machine}

theorem runner_turn (machine : Machine) :
    machine.turn.runner = (receive machine.runner []).2 ∧
      machine.turn.processes = machine.processes := by
  cases hstate : (receive machine.runner []).2.internalState <;>
    simp [Machine.turn, Machine.proceed, hstate]

theorem turn_cases (machine : Machine) :
    (machine.turn.runner.internalState = .Running ∧ machine.turn.position =
      if 0 < machine.processes then .working 0 else .between) ∨
    (machine.turn.runner.internalState ≠ .Running ∧
      machine.turn.position = machine.position) := by
  rw [(runner_turn machine).1]
  cases hstate : (receive machine.runner []).2.internalState with
  | Running => exact Or.inl ⟨rfl, by simp [Machine.turn, Machine.proceed, hstate]⟩
  | Initialized | Paused | Stopped => exact Or.inr ⟨by simp, by simp [Machine.turn, hstate]⟩

theorem length_turn (machine : Machine) :
    machine.turn.runner.commandReceiver.length ≤ machine.runner.commandReceiver.length := by
  rw [(runner_turn machine).1, receive_commandReceiver, List.append_nil, List.length_tail]
  exact Nat.sub_le _ _

theorem after_cases (machine : Machine) (n : ℕ) (thread : Option Thread) :
    (cycleOver thread = false ∧ machine.after n thread = machine) ∨
    (cycleOver thread = true ∧ machine.after n thread = machine.proceed (n + 1)) := by
  unfold Machine.after
  cases cycleOver thread with
  | false => exact Or.inl ⟨rfl, rfl⟩
  | true => exact Or.inr ⟨rfl, rfl⟩

end Machines

section Machines
variable {κ : Type*} {id : κ} {machine : Machine} {threads : Threads (κ × ℕ)}

theorem OrderlyAt.congr (h : OrderlyAt threads id machine) {threads' : Threads (κ × ℕ)}
    (hsame : ∀ n, threads'.thread (id, n) = threads.thread (id, n)) :
    OrderlyAt threads' id machine := by
  refine ⟨?_, h.room, h.working, ?_⟩
  · intro n
    rw [hsame n]
    exact h.hosted n
  · intro n self hself
    rw [hsame n] at hself
    exact h.resting n self hself

theorem OrderlyAt.withCommand (h : OrderlyAt threads id machine)
    (hroom : machine.runner.commandReceiver = []) (command : InternalState) :
    OrderlyAt threads id (machine.withCommand command) := by
  refine ⟨h.hosted, ?_, h.working, h.resting⟩
  show (machine.runner.commandReceiver ++ [_]).length ≤ COMMAND_CAPACITY
  rw [hroom]
  exact Nat.le_refl 1

theorem OrderlyAt.turn (h : OrderlyAt threads id machine)
    (hposition : machine.position = .between) : OrderlyAt threads id machine.turn := by
  obtain ⟨-, hprocesses⟩ := runner_turn machine
  refine ⟨?_, (length_turn machine).trans h.room, ?_, ?_⟩
  · rw [hprocesses]
    exact h.hosted
  · intro n hn
    rcases turn_cases machine with ⟨hrunning, hturn⟩ | ⟨-, hturn⟩
    · rw [hturn] at hn
      by_cases hpos : 0 < machine.processes
      · rw [if_pos hpos] at hn
        obtain rfl := Position.working.inj hn
        exact ⟨hprocesses.symm ▸ hpos, hrunning⟩
      · rw [if_neg hpos] at hn
        cases hn
    · rw [hturn, hposition] at hn
      cases hn
  · intro n self hself _
    refine h.resting n self hself ?_
    rw [hposition]
    exact fun hne => by cases hne

end Machines

section Order
variable {forms : TextForms} {κ : Type*} [DecidableEq κ] {state state' : Machines κ}
  {event : RouterMachines.Event κ} {report : Option (Report κ)} {id : κ} {machine : Machine}
  {threads : Threads (κ × ℕ)} {entry : Option (Option (κ × ℕ) × Effect)}

theorem thread_outside {inner : ProcessThreads.Event (κ × ℕ)}
    (hstep : ProcessThreads.step forms state.threads inner = .ok (threads, entry))
    (houtside : ∀ i instant, inner ≠ .act i instant) : threads.thread = state.threads.thread := by
  have hmoves := moves_of_step hstep
  cases hmoves with
  | act i instant => exact absurd rfl (houtside i instant)
  | _ => rfl

/-- The thread that the machine works on takes a step. -/
theorem OrderlyAt.after {n : ℕ} {instant : Instant} (h : OrderlyAt state.threads id machine)
    (hcleared : ∀ place self, state.threads.thread place = some self → Cleared self)
    (hposition : machine.position = .working n)
    (hstep : ProcessThreads.step forms state.threads (.act (id, n) instant) =
      .ok (threads, entry)) :
    OrderlyAt threads id (machine.after n (threads.thread (id, n))) := by
  obtain ⟨hlt, hrunning⟩ := h.working n hposition
  obtain ⟨self, hself⟩ := (h.hosted n).mp hlt
  obtain ⟨self', effect, hsteps, hthreads, -⟩ := act_cases hself (moves_of_step hstep)
  have hnew : threads.thread (id, n) = some self' := by
    rw [hthreads]
    exact setThread_self _ _ _ _
  have hold : ∀ m, m ≠ n → threads.thread (id, m) = state.threads.thread (id, m) := by
    intro m hm
    rw [hthreads]
    exact setThread_of_ne _ (fun heq => hm (Prod.mk.inj heq).2) _ _
  have hhosted : ∀ m, m < machine.processes ↔ ∃ other, threads.thread (id, m) = some other := by
    intro m
    by_cases hm : m = n
    · subst hm
      exact ⟨fun _ => ⟨self', hnew⟩, fun _ => hlt⟩
    · rw [hold m hm]
      exact h.hosted m
  have hothers : ∀ m other, m ≠ n → threads.thread (id, m) = some other → Resting other := by
    intro m other hm hother
    rw [hold m hm] at hother
    refine h.resting m other hother ?_
    rw [hposition]
    exact fun heq => hm (Position.working.inj heq).symm
  rcases after_cases machine n (threads.thread (id, n)) with ⟨-, hafter⟩ | ⟨hover, hafter⟩
  · rw [hafter]
    refine ⟨hhosted, h.room, h.working, ?_⟩
    intro m other hother hne
    refine hothers m other ?_ hother
    rintro rfl
    exact hne hposition
  · rw [hafter]
    have hdone : Resting self' := resting_of_cycleOver (hcleared _ self hself) hsteps
      (cycleOver_iff.mp hover self' hnew)
    refine ⟨hhosted, h.room, ?_, ?_⟩
    · intro m hm
      have hm' : (if n + 1 < machine.processes then Position.working (n + 1) else .between) =
        .working m := hm
      by_cases hmore : n + 1 < machine.processes
      · rw [if_pos hmore] at hm'
        obtain rfl := Position.working.inj hm'
        exact ⟨hmore, hrunning⟩
      · rw [if_neg hmore] at hm'
        cases hm'
    · intro m other hother _
      by_cases hm : m = n
      · subst hm
        obtain rfl := Option.some.inj (hnew.symm.trans hother)
        exact hdone
      · exact hothers m other hm hother

theorem machine_setMachine (state : Machines κ) (id other : κ) (machine : Machine) :
    (setMachine state id machine).machine other =
      if other = id then some machine else state.machine other := by
  unfold setMachine
  simp only [Function.update_apply]

/-- One machine is another one, and the threads of the others stay as they are. -/
theorem Orderly.set (h : Orderly state)
    (hothers : ∀ other, other ≠ id →
      ∀ n, threads.thread (other, n) = state.threads.thread (other, n))
    (hcleared : ∀ place self, threads.thread place = some self → Cleared self)
    (hmachine : OrderlyAt threads id machine) :
    Orderly (setMachine ⟨state.machine, threads⟩ id machine) := by
  refine ⟨?_, hcleared⟩
  intro other found hfound
  rw [machine_setMachine] at hfound
  by_cases hother : other = id
  · rw [if_pos hother] at hfound
    obtain rfl := Option.some.inj hfound
    rw [hother]
    exact hmachine
  · rw [if_neg hother] at hfound
    exact (h.machines other found hfound).congr (hothers other hother)

theorem cleared_of_step {inner : ProcessThreads.Event (κ × ℕ)}
    (hcleared : ∀ place self, state.threads.thread place = some self → Cleared self)
    (hstep : ProcessThreads.step forms state.threads inner = .ok (threads, entry)) (place : κ × ℕ)
    (self : Thread) (hself : threads.thread place = some self) : Cleared self := by
  have hmoves := moves_of_step hstep
  cases hmoves with
  | act i instant old self' shared effect hold hsteps =>
    by_cases hplace : place = i
    · subst hplace
      rw [setThread_self] at hself
      obtain rfl := Option.some.inj hself
      exact cleared_of_steps (hcleared place old hold) hsteps
    · rw [setThread_of_ne state.threads hplace] at hself
      exact hcleared place self hself
  | _ => exact hcleared place self hself

theorem Orderly.moves (h : Orderly state) (hmoves : MachineMoves forms state event state' report) :
    Orderly state' := by
  cases hmoves with
  | idle | failed => exact h
  | commanded id command machine hmachine halive hroom =>
    exact h.set (fun _ _ _ => rfl) h.cleared ((h.machines id machine hmachine).withCommand hroom _)
  | turned id machine hmachine hposition halive =>
    exact h.set (fun _ _ _ => rfl) h.cleared ((h.machines id machine hmachine).turn hposition)
  | worked id instant machine n threads entry hmachine hposition hstep =>
    have hat := h.machines id machine hmachine
    obtain ⟨self, hself⟩ := (hat.hosted n).mp (hat.working n hposition).1
    obtain ⟨self', effect, -, hthreads, -⟩ := act_cases hself (moves_of_step hstep)
    refine h.set ?_ (cleared_of_step h.cleared hstep) (hat.after h.cleared hposition hstep)
    intro other hother m
    rw [hthreads]
    exact setThread_of_ne _ (fun heq => hother (Prod.mk.inj heq).1) _ _
  | outside _ inner threads entry houtside hstep =>
    have hsame := thread_outside hstep houtside
    refine ⟨?_, cleared_of_step h.cleared hstep⟩
    intro id machine hmachine
    exact (h.machines id machine hmachine).congr (fun n => congrFun hsame _)

theorem Orderly.run {events : List (RouterMachines.Event κ)} {log : List (Report κ)}
    (h : Orderly state) (hrun : RouterMachines.run forms state events = .ok (state', log)) :
    Orderly state' := by
  induction events generalizing state log with
  | nil =>
    obtain ⟨rfl, -⟩ := Prod.mk.inj (Except.ok.inj hrun)
    exact h
  | cons event rest ih =>
    obtain ⟨next, report, later, hmoves, hrest, -⟩ := run_cons hrun
    exact ih (h.moves hmoves) hrest

/-- The effects of a run are those of a run of the threads. -/
theorem threads_run {events : List (RouterMachines.Event κ)} {log : List (Report κ)}
    (hrun : RouterMachines.run forms state events = .ok (state', log)) :
    ∃ inner, ProcessThreads.run forms state.threads inner =
      .ok (state'.threads, effectsOf log) := by
  induction events generalizing state log with
  | nil =>
    obtain ⟨rfl, rfl⟩ := Prod.mk.inj (Except.ok.inj hrun)
    exact ⟨[], rfl⟩
  | cons event rest ih =>
    obtain ⟨next, report, later, hmoves, hrest, rfl⟩ := run_cons hrun
    obtain ⟨inner, hinner⟩ := ih hrest
    have heffects : effectsOf (report.toList ++ later) =
        report.toList.filterMap Report.entry ++ effectsOf later := List.filterMap_append
    have hacted : ∀ threads (entry : Option (Option (κ × ℕ) × Effect)) first,
        ProcessThreads.step forms state.threads first = .ok (threads, entry) →
        report = entry.map .effect → next.threads = threads →
        ProcessThreads.run forms state.threads (first :: inner) =
          .ok (state'.threads, effectsOf (report.toList ++ later)) := by
      intro threads entry first hstep hreport hthreads
      rw [hthreads] at hinner
      refine Runs.collect_cons_ok.mpr ⟨threads, entry, effectsOf later, hstep, hinner, ?_⟩
      rw [heffects, hreport]
      cases entry <;> rfl
    cases hmoves with
    | idle | failed | commanded | turned => exact ⟨inner, hinner⟩
    | worked id instant machine n threads entry hmachine hposition hstep =>
      exact ⟨_, hacted threads entry _ hstep rfl rfl⟩
    | outside _ first threads entry houtside hstep =>
      exact ⟨_, hacted threads entry first hstep rfl rfl⟩

/-- If the RIBs of the threads have room, an event goes through. -/
theorem exists_step (h : Roomy state.threads) (event : RouterMachines.Event κ) :
    ∃ reached, RouterMachines.step forms state event = .ok reached := by
  have honThreads : ∀ inner, ∃ reached, onThreads forms state inner = .ok reached := by
    intro inner
    obtain ⟨reached, hstep⟩ := @Roomy.exists_moves forms _ _ _ h inner
    unfold onThreads
    rw [hstep]
    exact ⟨_, rfl⟩
  cases event with
  | command id command =>
    simp only [RouterMachines.step]
    cases state.machine id with
    | none => exact ⟨_, rfl⟩
    | some machine =>
      simp only
      rcases sendCommand_cases machine command with ⟨-, hsend⟩ | ⟨-, -, hsend⟩ | ⟨-, hsend⟩
      all_goals
        rw [hsend]
        exact ⟨_, rfl⟩
  | turn id =>
    simp only [RouterMachines.step]
    cases state.machine id with
    | none => exact ⟨_, rfl⟩
    | some machine =>
      simp only
      by_cases hready : machine.position = .between ∧ stopped machine.runner = false
      · rw [if_pos hready]
        exact ⟨_, rfl⟩
      · rw [if_neg hready]
        exact ⟨_, rfl⟩
  | work id instant =>
    simp only [RouterMachines.step]
    cases state.machine id with
    | none => exact ⟨_, rfl⟩
    | some machine =>
      cases hposition : machine.position with
      | between =>
        simp only [hposition]
        exact ⟨_, rfl⟩
      | working n =>
        obtain ⟨reached, hreached⟩ := honThreads (.act (id, n) instant)
        simp only [hposition, work, hreached]
        exact ⟨_, rfl⟩
  | arrive channel message => exact honThreads _
  | leave channel => exact honThreads _

/-- However commands are sent and the machines and messages interleave, no machine panics; the
machines stay in order, and the effects are those of a run of the threads. -/
theorem orderly_run (forms : TextForms) (state : Machines κ) (horderly : Orderly state)
    (hroomy : Roomy state.threads) (events : List (RouterMachines.Event κ)) :
    ∃ state' log, RouterMachines.run forms state events = .ok (state', log) ∧ Orderly state' ∧
      ∃ inner, ProcessThreads.run forms state.threads inner =
        .ok (state'.threads, effectsOf log) := by
  suffices h : ∃ state' log, RouterMachines.run forms state events = .ok (state', log) by
    obtain ⟨state', log, hrun⟩ := h
    exact ⟨state', log, hrun, horderly.run hrun, threads_run hrun⟩
  clear horderly
  induction events generalizing state with
  | nil => exact ⟨state, [], rfl⟩
  | cons event rest ih =>
    obtain ⟨⟨next, report⟩, hstep⟩ := @exists_step forms _ _ _ hroomy event
    have hnext : Roomy next.threads := by
      have hmoves := machineMoves_of_step hstep
      cases hmoves with
      | idle | failed | commanded | turned => exact hroomy
      | worked id instant machine n threads entry hmachine hposition hinner =>
        exact hroomy.moves (moves_of_step hinner)
      | outside _ first threads entry houtside hinner => exact hroomy.moves (moves_of_step hinner)
    obtain ⟨state', log, hrun⟩ := ih next hnext
    exact ⟨state', report.toList ++ log, Runs.collect_cons_ok.mpr
      ⟨next, report, log, hstep, hrun, rfl⟩⟩

end Order

end NetfabricBgp.MachineRuns
