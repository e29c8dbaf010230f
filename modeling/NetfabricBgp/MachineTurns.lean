import NetfabricBgp.MachineRuns
import NetfabricBgp.RunnerTurns

/-!
The laws of a started network. In each iteration in which a machine is told to run, it makes one
advertisement for each of its processes. As its channel has room for one command, a Stop that
was sent is the next command it takes, so it begins no further cycle.
-/
namespace NetfabricBgp.MachineTurns

open RouterMasks Ribs Advertisements Channels StateMachines StateMachineHandles Interfaces
  Processes Supplies ProcessThreads ThreadSteps ThreadHistories RouterMachines MachineRuns

def isPublish : Effect → Bool
  | .publish _ => true
  | _ => false

section Counting
variable {κ : Type*} [DecidableEq κ]

/-- An iteration in which the machine works. -/
def begins (id : κ) : Report κ → Bool
  | .turned other internalState => other = id ∧ internalState = .Running
  | _ => false

/-- An advertisement that a process makes. -/
def publishes (place : κ × ℕ) : Report κ → Bool
  | .effect (some other, effect) => other = place && isPublish effect
  | _ => false

end Counting

/-- Whether a thread in this stage has still to make its advertisement. -/
def owed : Stage → ℕ
  | .send _ => 0
  | .sending _ _ => 0
  | _ => 1

/-- Whether a process has still to make its advertisement in this iteration. -/
def dueAt (machine : Machine) (n : ℕ) (self : Thread) : ℕ :=
  match machine.position with
  | .between => 0
  | .working k => if n < k then 0 else if n = k then owed self.stage else 1

section Advertisements
variable {forms : TextForms} {instant : Instant} {shared shared' : Shared} {self self' : Thread}
  {effect : Option Effect} {machine : Machine} {n : ℕ}

theorem dueAt_between (h : machine.position = .between) : dueAt machine n self = 0 := by
  simp [dueAt, h]

theorem dueAt_working {k : ℕ} (h : machine.position = .working k) :
    dueAt machine n self = if n < k then 0 else if n = k then owed self.stage else 1 := by
  simp [dueAt, h]

theorem dueAt_le (machine : Machine) (n : ℕ) (self : Thread) : dueAt machine n self ≤ 1 := by
  have howed : ∀ stage, owed stage ≤ 1 := by
    intro stage
    cases stage <;> simp [owed]
  cases hposition : machine.position with
  | between => rw [dueAt_between hposition]; omega
  | working k =>
    rw [dueAt_working hposition]
    have hstage := howed self.stage
    by_cases hlt : n < k
    · rw [if_pos hlt]; omega
    · rw [if_neg hlt]
      by_cases heq : n = k
      · rw [if_pos heq]; exact hstage
      · rw [if_neg heq]

/-- A step makes the advertisement, or the thread owes it as before. -/
theorem owed_of_steps (hsteps : Steps forms instant shared self shared' self' effect)
    (hover : self'.stage ≠ .receive 0) :
    effect.toList.countP isPublish + owed self'.stage =
      owed self.stage := by
  cases hsteps with
  | publish hstage => rw [hstage]; rfl
  | sendDone => exact absurd rfl hover
  | receiveUnset n hstage | collect n interface hstage =>
    rcases hstage with hstage | hstage <;> rw [hstage] <;> rfl
  | receiveTimedOut n interface hstage | receiveBegin n interface hstage | receiveDone n hstage
  | take n interface interface' id message rest hstage
  | discardForeign n interface id message rest hstage
  | discardFull n interface id ad rest hstage | updateDone hstage | skip ad rest hstage
  | apply ad rest rib ribInterface hstage | sendUnset n hstage | sendNothing n interface hstage
  | sendBegin n interface hstage | sendingDone n rest hstage | filterOut n interface ad rest hstage
  | put n interface ad rest id channel hstage | refuse n interface ad rest id e hstage =>
    rw [hstage]; rfl

end Advertisements

section Laws
variable {forms : TextForms} {κ : Type*} [DecidableEq κ] {state state' : Machines κ}
  {event : RouterMachines.Event κ} {report : Option (Report κ)} {id : κ} {machine : Machine}
  {n : ℕ} {self : Thread}

/-- The balance of a process: what it has made and what is due. -/
def Balanced (state' : Machines κ) (log : List (Report κ)) (id : κ) (n : ℕ)
    (machine : Machine) (self : Thread) : Prop :=
  ∃ machine' self', state'.machine id = some machine' ∧
    state'.threads.thread (id, n) = some self' ∧
    log.countP (publishes (id, n)) + dueAt machine' n self' =
      log.countP (begins id) + dueAt machine n self

theorem countP_effects (entries : Option (Option (κ × ℕ) × Effect)) (id : κ) :
    (entries.map Report.effect).toList.countP (begins id) = 0 := by
  cases entries <;> rfl

/-- No effect of one event counts, if the effects of its actor do not. -/
theorem countP_actor {inner : ProcessThreads.Event (κ × ℕ)} {threads : Threads (κ × ℕ)}
    {entry : Option (Option (κ × ℕ) × Effect)} (counts : Report κ → Bool)
    (hstep : ProcessThreads.step forms state.threads inner = .ok (threads, entry))
    (hact : ∀ i instant effect, inner = .act i instant → counts (.effect (some i, effect)) = false)
    (hnone : ∀ effect, counts (.effect (none, effect)) = false) :
    (entry.map Report.effect).toList.countP counts = 0 := by
  have hmoves := moves_of_step hstep
  cases hmoves with
  | act i instant actor actor' shared effect hactor hsteps =>
    cases effect with
    | none => rfl
    | some done => simp [hact i instant done rfl]
  | absent | leaveNothing => rfl
  | arrive | arriveFull | leave => simp [hnone]

theorem countP_others {place : κ × ℕ} {other : κ × ℕ} (hne : other ≠ place)
    (effect : Option Effect) :
    ((effect.map (some other, ·)).map Report.effect).toList.countP (publishes place) = 0 := by
  cases effect with
  | none => rfl
  | some done => simp [publishes, hne]

theorem countP_own (place : κ × ℕ) (effect : Option Effect) :
    ((effect.map (some place, ·)).map Report.effect).toList.countP (publishes place) =
      effect.toList.countP isPublish := by
  cases effect with
  | none => rfl
  | some done => simp [publishes]

theorem machine_setMachine_of_ne {other : κ} (hne : id ≠ other) (found : Machine) :
    (setMachine state other found).machine id = state.machine id := by
  rw [machine_setMachine, if_neg hne]

/-- An iteration makes every process of the machine owe an advertisement, if it works. -/
theorem balanced_turn (h : OrderlyAt state.threads id machine)
    (hself : state.threads.thread (id, n) = some self) (hposition : machine.position = .between) :
    Balanced (setMachine state id machine.turn) [.turned id machine.turn.runner.internalState] id n
      machine self := by
  refine ⟨machine.turn, self, by rw [machine_setMachine, if_pos rfl], hself, ?_⟩
  rw [dueAt_between hposition]
  rcases turn_cases machine with ⟨hrunning, hturn⟩ | ⟨hnot, hturn⟩
  · have hlt : n < machine.processes := (h.hosted n).mpr ⟨self, hself⟩
    have hresting : Resting self := by
      refine h.resting n self hself ?_
      rw [hposition]
      exact fun heq => by cases heq
    rw [if_pos (Nat.zero_lt_of_lt hlt)] at hturn
    rw [dueAt_working hturn, hresting.1]
    simp [publishes, begins, hrunning, owed]
  · rw [hposition] at hturn
    rw [dueAt_between hturn]
    simp [publishes, begins, hnot]

/-- A step of the process that the machine works on. It makes its advertisement, or it owes as
before; on to the next process the machine goes when nothing is owed. -/
theorem balanced_worked {k : ℕ} {instant : Instant} {threads : Threads (κ × ℕ)}
    {entry : Option (Option (κ × ℕ) × Effect)} (h : Orderly state)
    (hmachine : state.machine id = some machine)
    (hself : state.threads.thread (id, n) = some self)
    (hposition : machine.position = .working k)
    (hstep : ProcessThreads.step forms state.threads (.act (id, k) instant) =
      .ok (threads, entry)) :
    Balanced (setMachine ⟨state.machine, threads⟩ id (machine.after k (threads.thread (id, k))))
      (entry.map Report.effect).toList id n machine self := by
  have hat := h.machines id machine hmachine
  obtain ⟨actor, hactor⟩ := (hat.hosted k).mp (hat.working k hposition).1
  obtain ⟨actor', effect, hsteps, hthreads, rfl⟩ := act_cases hactor (moves_of_step hstep)
  have hnew : threads.thread (id, k) = some actor' := by
    rw [hthreads]
    exact setThread_self _ _ _ _
  have hlt : n < machine.processes := (hat.hosted n).mpr ⟨self, hself⟩
  have hat' : (setMachine ⟨state.machine, threads⟩ id
      (machine.after k (threads.thread (id, k)))).machine id =
        some (machine.after k (threads.thread (id, k))) := by
    rw [machine_setMachine, if_pos rfl]
  by_cases hn : n = k
  · subst hn
    obtain rfl := Option.some.inj (hactor.symm.trans hself)
    refine ⟨_, actor', hat', hnew, ?_⟩
    rw [countP_effects, countP_own, dueAt_working hposition, if_neg (Nat.lt_irrefl n), if_pos rfl]
    rcases after_cases machine n (threads.thread (id, n)) with ⟨hnot, hafter⟩ | ⟨hover, hafter⟩
    · have hstage : actor'.stage ≠ .receive 0 := by
        intro hzero
        rw [cycleOver_iff.mpr (fun other hother => by
          obtain rfl := Option.some.inj (hnew.symm.trans hother); exact hzero)] at hnot
        cases hnot
      have howed := owed_of_steps hsteps hstage
      rw [hafter, dueAt_working hposition, if_neg (Nat.lt_irrefl n), if_pos rfl]
      omega
    · obtain ⟨⟨m, hstage⟩, rfl, -⟩ := sent_of_cycleOver hsteps (cycleOver_iff.mp hover actor' hnew)
      have hdone : dueAt (machine.after n (threads.thread (id, n))) n actor' = 0 := by
        rw [hafter]
        unfold dueAt Machine.proceed
        by_cases hmore : n + 1 < machine.processes <;> simp [hmore]
      rw [hdone, hstage]
      rfl
  · have hold : threads.thread (id, n) = some self := by
      rw [hthreads, setThread_of_ne _ (fun heq => hn (Prod.mk.inj heq).2), hself]
    refine ⟨_, self, hat', hold, ?_⟩
    rw [countP_effects, countP_others (fun heq => hn (Prod.mk.inj heq).2.symm),
      dueAt_working hposition, if_neg hn]
    rcases after_cases machine k (threads.thread (id, k)) with ⟨-, hafter⟩ | ⟨-, hafter⟩
    · rw [hafter, dueAt_working hposition, if_neg hn]
    · have hresting : Resting self := by
        refine hat.resting n self hself ?_
        rw [hposition]
        exact fun heq => hn (Position.working.inj heq).symm
      have hstage : owed self.stage = 1 := by
        rw [hresting.1]
        rfl
      rw [hafter]
      unfold dueAt Machine.proceed
      by_cases hmore : k + 1 < machine.processes
      · simp only [if_pos hmore, hstage]
        by_cases hlow : n < k
        · rw [if_pos hlow, if_pos (by omega)]
        · rw [if_neg hlow, if_neg (by omega)]
          simp
      · simp only [if_neg hmore]
        rw [if_pos (by omega)]

theorem balanced_moves (h : Orderly state) (hmachine : state.machine id = some machine)
    (hself : state.threads.thread (id, n) = some self)
    (hmoves : MachineMoves forms state event state' report) :
    Balanced state' report.toList id n machine self := by
  cases hmoves with
  | idle => exact ⟨machine, self, hmachine, hself, rfl⟩
  | failed other command found hfound hended =>
    exact ⟨machine, self, hmachine, hself, by simp [publishes, begins]⟩
  | commanded other command found hfound halive hroom =>
    by_cases hid : id = other
    · subst hid
      obtain rfl := Option.some.inj (hmachine.symm.trans hfound)
      refine ⟨machine.withCommand command, self, by rw [machine_setMachine, if_pos rfl], hself, ?_⟩
      simp [publishes, begins, dueAt, Machine.withCommand]
    · exact ⟨machine, self, (machine_setMachine_of_ne hid _).trans hmachine, hself,
        by simp [publishes, begins]⟩
  | turned other found hfound hposition halive =>
    by_cases hid : id = other
    · subst hid
      obtain rfl := Option.some.inj (hmachine.symm.trans hfound)
      exact balanced_turn (h.machines id machine hmachine) hself hposition
    · exact ⟨machine, self, (machine_setMachine_of_ne hid _).trans hmachine, hself,
        by simp [publishes, begins, Ne.symm hid]⟩
  | worked other instant found k threads entry hfound hposition hstep =>
    by_cases hid : id = other
    · subst hid
      obtain rfl := Option.some.inj (hmachine.symm.trans hfound)
      exact balanced_worked h hmachine hself hposition hstep
    · have hat := h.machines other found hfound
      obtain ⟨actor, hactor⟩ := (hat.hosted k).mp (hat.working k hposition).1
      obtain ⟨actor', effect, -, hthreads, rfl⟩ := act_cases hactor (moves_of_step hstep)
      have hne : (id, n) ≠ (other, k) := fun heq => hid (Prod.mk.inj heq).1
      refine ⟨machine, self, (machine_setMachine_of_ne hid _).trans hmachine, ?_, ?_⟩
      · show threads.thread (id, n) = _
        rw [hthreads, setThread_of_ne _ hne, hself]
      · rw [countP_effects, countP_others hne.symm]
  | outside _ inner threads entry houtside hstep =>
    have hsame : threads.thread (id, n) = some self := by
      rw [thread_outside hstep houtside, hself]
    refine ⟨machine, self, hmachine, hsame, ?_⟩
    rw [countP_effects]
    rw [countP_actor (publishes (id, n)) hstep ?_ (fun _ => rfl)]
    exact fun i instant effect hevent => absurd hevent (houtside i instant)

/-- The induction is on the events, and the balances of the steps add up. -/
theorem balanced_run {events : List (RouterMachines.Event κ)} {log : List (Report κ)}
    (h : Orderly state) (hmachine : state.machine id = some machine)
    (hself : state.threads.thread (id, n) = some self)
    (hrun : RouterMachines.run forms state events = .ok (state', log)) :
    Balanced state' log id n machine self := by
  induction events generalizing state log machine self with
  | nil =>
    obtain ⟨rfl, rfl⟩ := Prod.mk.inj (Except.ok.inj hrun)
    exact ⟨machine, self, hmachine, hself, rfl⟩
  | cons event rest ih =>
    obtain ⟨next, report, later, hmoves, hrest, rfl⟩ := run_cons hrun
    obtain ⟨machine', self', hmachine', hself', hfirst⟩ := balanced_moves h hmachine hself hmoves
    obtain ⟨machine'', self'', hmachine'', hself'', hlater⟩ :=
      ih (h.moves hmoves) hmachine' hself' hrest
    refine ⟨machine'', self'', hmachine'', hself'', ?_⟩
    rw [List.countP_append, List.countP_append]
    omega

end Laws

section Stopping
variable {forms : TextForms} {κ : Type*} [DecidableEq κ] {state state' : Machines κ}
  {event : RouterMachines.Event κ} {report : Option (Report κ)} {id : κ}

/-- What a machine or one of its threads does, or takes. -/
def ofMachine (id : κ) : Report κ → Bool
  | .commanded other _ => other = id
  | .turned other _ => other = id
  | .effect (some other, _) => other.1 = id
  | _ => false

/-- The runner of the machine has returned. -/
def Ended (state : Machines κ) (id : κ) : Prop :=
  ∃ machine, state.machine id = some machine ∧ machine.runner.internalState = .Stopped ∧
    machine.position = .between

/-- The next command that the machine takes is a Stop. -/
def Ending (state : Machines κ) (id : κ) : Prop :=
  ∃ machine, state.machine id = some machine ∧
    machine.runner.commandReceiver = [.command .Stopped]

theorem stopped_iff {machine : Machine} :
    stopped machine.runner = true ↔ machine.runner.internalState = .Stopped := by
  simp [stopped]

/-- Nothing comes from a machine whose runner has returned. -/
theorem ended_moves (h : Ended state id) (hmoves : MachineMoves forms state event state' report) :
    Ended state' id ∧ report.toList.countP (ofMachine id) = 0 := by
  obtain ⟨machine, hmachine, hstopped, hbetween⟩ := h
  have hkeeps : ∀ other found threads, id ≠ other →
      Ended (setMachine ⟨state.machine, threads⟩ other found) id := fun other found threads hne =>
    ⟨machine, (machine_setMachine_of_ne hne found).trans hmachine, hstopped, hbetween⟩
  have hother : ∀ other found, state.machine other = some found →
      found.runner.internalState ≠ .Stopped ∨ found.position ≠ .between → id ≠ other := by
    rintro other found hfound hnot rfl
    obtain rfl := Option.some.inj (hmachine.symm.trans hfound)
    rcases hnot with hnot | hnot
    · exact hnot hstopped
    · exact hnot hbetween
  cases hmoves with
  | idle => exact ⟨⟨machine, hmachine, hstopped, hbetween⟩, rfl⟩
  | failed => exact ⟨⟨machine, hmachine, hstopped, hbetween⟩, rfl⟩
  | commanded other command found hfound halive hroom =>
    have hne := hother other found hfound (Or.inl (fun hs => by
      rw [stopped_iff.mpr hs] at halive; cases halive))
    exact ⟨hkeeps other _ _ hne, by simp [ofMachine, Ne.symm hne]⟩
  | turned other found hfound hposition halive =>
    have hne := hother other found hfound (Or.inl (fun hs => by
      rw [stopped_iff.mpr hs] at halive; cases halive))
    exact ⟨hkeeps other _ _ hne, by simp [ofMachine, Ne.symm hne]⟩
  | worked other instant found k threads entry hfound hposition hstep =>
    have hbusy : found.position ≠ .between := by
      intro hbetween
      rw [hbetween] at hposition
      cases hposition
    have hne := hother other found hfound (Or.inr hbusy)
    refine ⟨hkeeps other _ threads hne, ?_⟩
    refine countP_actor _ hstep ?_ (fun _ => rfl)
    intro i instant' effect hevent
    obtain ⟨rfl, -⟩ := ProcessThreads.Event.act.inj hevent
    simp [ofMachine, Ne.symm hne]
  | outside _ inner threads entry houtside hstep =>
    refine ⟨⟨machine, hmachine, hstopped, hbetween⟩, countP_actor _ hstep ?_ (fun _ => rfl)⟩
    exact fun i instant effect hevent => absurd hevent (houtside i instant)

theorem ended_run {events : List (RouterMachines.Event κ)} {log : List (Report κ)}
    (h : Ended state id) (hrun : RouterMachines.run forms state events = .ok (state', log)) :
    log.countP (ofMachine id) = 0 := by
  induction events generalizing state log with
  | nil =>
    obtain ⟨-, rfl⟩ := Prod.mk.inj (Except.ok.inj hrun)
    rfl
  | cons event rest ih =>
    obtain ⟨next, report, later, hmoves, hrest, rfl⟩ := run_cons hrun
    obtain ⟨hended, hnone⟩ := ended_moves h hmoves
    rw [List.countP_append, hnone, ih hended hrest]

/-- The only iteration that a machine can begin next is the one in which it stops. -/
theorem ending_moves (h : Ending state id) (hmoves : MachineMoves forms state event state' report) :
    report.toList.countP (begins id) = 0 ∧
      ((Ending state' id ∧ ∀ internalState, report ≠ some (.turned id internalState)) ∨
        (Ended state' id ∧ report = some (.turned id .Stopped))) := by
  obtain ⟨machine, hmachine, hqueue⟩ := h
  have hkeeps : ∀ other found threads, id ≠ other →
      Ending (setMachine ⟨state.machine, threads⟩ other found) id := fun other found threads hne =>
    ⟨machine, (machine_setMachine_of_ne hne found).trans hmachine, hqueue⟩
  cases hmoves with
  | idle => exact ⟨rfl, Or.inl ⟨⟨machine, hmachine, hqueue⟩, fun _ heq => by cases heq⟩⟩
  | failed => exact ⟨rfl, Or.inl ⟨⟨machine, hmachine, hqueue⟩, fun _ heq => by cases heq⟩⟩
  | commanded other command found hfound halive hroom =>
    have hne : id ≠ other := by
      rintro rfl
      obtain rfl := Option.some.inj (hmachine.symm.trans hfound)
      rw [hqueue] at hroom
      cases hroom
    exact ⟨rfl, Or.inl ⟨hkeeps other _ _ hne, fun _ heq => by cases heq⟩⟩
  | turned other found hfound hposition halive =>
    by_cases hid : id = other
    · subst hid
      obtain rfl := Option.some.inj (hmachine.symm.trans hfound)
      have hstate : machine.turn.runner.internalState = .Stopped := by
        rw [(runner_turn machine).1, receive_internalState, receive_fst, hqueue]
        rfl
      have hbetween : machine.turn.position = .between := by
        rcases turn_cases machine with ⟨hrunning, -⟩ | ⟨-, hturn⟩
        · rw [hstate] at hrunning
          cases hrunning
        · rw [hturn, hposition]
      rw [hstate]
      refine ⟨by simp [begins], Or.inr ⟨⟨machine.turn, ?_, hstate, hbetween⟩, rfl⟩⟩
      rw [machine_setMachine, if_pos rfl]
    · refine ⟨by simp [begins, Ne.symm hid], Or.inl ⟨hkeeps other _ _ hid, ?_⟩⟩
      intro internalState heq
      exact hid (Report.turned.inj (Option.some.inj heq)).1.symm
  | worked other instant found k threads entry hfound hposition hstep =>
    refine ⟨countP_effects entry id, Or.inl ⟨?_, fun _ heq => by cases entry <;> cases heq⟩⟩
    by_cases hid : id = other
    · subst hid
      obtain rfl := Option.some.inj (hmachine.symm.trans hfound)
      refine ⟨_, by rw [machine_setMachine, if_pos rfl], ?_⟩
      rcases after_cases machine k (threads.thread (id, k)) with ⟨-, hafter⟩ | ⟨-, hafter⟩
      · rw [hafter, hqueue]
      · rw [hafter]
        exact hqueue
    · exact hkeeps other _ threads hid
  | outside _ inner threads entry houtside hstep =>
    exact ⟨countP_effects entry id, Or.inl ⟨⟨machine, hmachine, hqueue⟩,
      fun _ heq => by cases entry <;> cases heq⟩⟩

/-- Up to the iteration in which the machine stops, the Stop stays where it is. -/
theorem ending_run {events : List (RouterMachines.Event κ)} {log : List (Report κ)}
    (h : Ending state id) (hrun : RouterMachines.run forms state events = .ok (state', log)) :
    log.countP (begins id) = 0 ∧ ∀ earlier internalState later,
      log = earlier ++ .turned id internalState :: later →
        internalState = .Stopped ∧ later.countP (ofMachine id) = 0 := by
  induction events generalizing state log with
  | nil =>
    obtain ⟨-, rfl⟩ := Prod.mk.inj (Except.ok.inj hrun)
    exact ⟨rfl, fun earlier internalState later heq => by cases earlier <;> cases heq⟩
  | cons event rest ih =>
    obtain ⟨next, report, log, hmoves, hrest, rfl⟩ := run_cons hrun
    obtain ⟨hnone, hcases⟩ := ending_moves h hmoves
    rcases hcases with ⟨hending, hother⟩ | ⟨hended, rfl⟩
    · obtain ⟨hcount, hlater⟩ := ih hending hrest
      refine ⟨by rw [List.countP_append, hnone, hcount], ?_⟩
      intro earlier internalState later heq
      cases report with
      | none => exact hlater earlier internalState later heq
      | some first =>
        cases earlier with
        | nil =>
          obtain ⟨rfl, -⟩ := List.cons.inj heq
          exact absurd rfl (hother internalState)
        | cons found earlier => exact hlater earlier internalState later (List.cons.inj heq).2
    · have hzero := ended_run hended hrest
      have hnoTurn : ∀ internalState, Report.turned id internalState ∉ log := by
        intro internalState hmem
        exact absurd (decide_eq_true rfl) (List.countP_eq_zero.mp hzero _ hmem)
      refine ⟨?_, ?_⟩
      · rw [List.countP_append, hnone, Nat.zero_add, List.countP_eq_zero]
        intro found hfound hbegins
        cases found with
        | turned other internalState =>
          obtain ⟨rfl, -⟩ := of_decide_eq_true hbegins
          exact hnoTurn internalState hfound
        | _ => cases hbegins
      · intro earlier internalState later heq
        cases earlier with
        | nil =>
          obtain ⟨hfirst, rfl⟩ := List.cons.inj heq
          exact ⟨(Report.turned.inj hfirst).2.symm, hzero⟩
        | cons found earlier =>
          obtain ⟨-, rfl⟩ := List.cons.inj heq
          exact absurd (List.mem_append_right _ List.mem_cons_self) (hnoTurn internalState)

end Stopping

/-- A router as a state of its runner: it never asks to stop, and cleans nothing up. -/
def routerState : State Unit Unit := ⟨fun _ state => (state, .Continue), fun _ state => state⟩

section Runners
variable {forms : TextForms} {κ : Type*} [DecidableEq κ] {state state' : Machines κ}
  {event : RouterMachines.Event κ} {report : Option (Report κ)} {id : κ} {machine : Machine}
  {iterations : List (Iteration Unit)} {waiting : List StateMachines.Message}

def turnOf (id : κ) : Report κ → Option InternalState
  | .turned other internalState => if other = id then some internalState else none
  | _ => none

def commandOf (id : κ) : Report κ → Option StateMachines.Message
  | .commanded other command => if other = id then some (.command command) else none
  | _ => none

/-- The machine after these iterations of its runner, with some messages sent since. -/
def Follows (machine : Machine) (iterations : List (Iteration Unit))
    (waiting : List StateMachines.Message) : Prop :=
  machine.runner = { (runner routerState () iterations).1 with
    commandReceiver := (runner routerState () iterations).1.commandReceiver ++ waiting }

/-- What the log tells of the machine are some iterations more of its runner. -/
def Continues (state' : Machines κ) (id : κ) (log : List (Report κ))
    (iterations : List (Iteration Unit)) (waiting : List StateMachines.Message) : Prop :=
  ∃ machine more waiting', state'.machine id = some machine ∧
    Follows machine (iterations ++ more) waiting' ∧
    (runner routerState () (iterations ++ more)).2.map Turn.internalState =
      (runner routerState () iterations).2.map Turn.internalState ++ log.filterMap (turnOf id) ∧
    waiting ++ log.filterMap (commandOf id) = more.flatMap Iteration.arriving ++ waiting'

theorem act_routerState (self : Runner Unit) : (act routerState () self).1 = self := by
  obtain ⟨commandReceiver, internalState, ⟨⟩⟩ := self
  cases internalState <;> rfl

/-- One iteration more. -/
theorem runner_concat (halive : stopped (runner routerState () iterations).1 = false)
    (i : Iteration Unit) :
    (runner routerState () (iterations ++ [i])).1 =
        (receive (runner routerState () iterations).1 i.arriving).2 ∧
      (runner routerState () (iterations ++ [i])).2.map Turn.internalState =
        (runner routerState () iterations).2.map Turn.internalState ++
          [(receive (runner routerState () iterations).1 i.arriving).2.internalState] := by
  have happend := @Loops.loop_append _ _ _ stopped (iterate routerState) ⟨[], .Initialized, ()⟩
    iterations [i]
  have hcons := @Loops.loop_cons _ _ _ stopped (iterate routerState) _ halive i []
  have hnext : (iterate routerState (runner routerState () iterations).1 i).1 =
      (receive (runner routerState () iterations).1 i.arriving).2 := act_routerState _
  unfold runner at halive hnext ⊢
  unfold runner at hcons
  rw [happend, hcons]
  refine ⟨hnext, ?_⟩
  rw [List.map_append]
  rfl

theorem receive_congr {self self' : Runner Unit} {arriving arriving' : List StateMachines.Message}
    (hmessages : self.commandReceiver ++ arriving = self'.commandReceiver ++ arriving')
    (hstate : self.internalState = self'.internalState) :
    receive self arriving = receive self' arriving' := by
  obtain ⟨commandReceiver, internalState, ⟨⟩⟩ := self
  obtain ⟨commandReceiver', internalState', ⟨⟩⟩ := self'
  obtain rfl : internalState = internalState' := hstate
  unfold receive
  simp only at hmessages ⊢
  rw [hmessages]

theorem continues_quiet {log : List (Report κ)} (h : Follows machine iterations waiting)
    (hmachine : state'.machine id = some machine) (hturns : log.filterMap (turnOf id) = [])
    (hcommands : log.filterMap (commandOf id) = []) :
    Continues state' id log iterations waiting := by
  refine ⟨machine, [], waiting, hmachine, ?_, ?_, ?_⟩
  · rw [List.append_nil]
    exact h
  · rw [List.append_nil, hturns, List.append_nil]
  · rw [hcommands, List.append_nil, List.flatMap_nil, List.nil_append]

/-- A report of the machine is one of its runner, or none of either. -/
theorem follows_moves (h : Follows machine iterations waiting)
    (hmachine : state.machine id = some machine)
    (hmoves : MachineMoves forms state event state' report) :
    Continues state' id report.toList iterations waiting := by
  have heffect : ∀ entry : Option (Option (κ × ℕ) × Effect),
      (entry.map Report.effect).toList.filterMap (turnOf id) = [] ∧
        (entry.map Report.effect).toList.filterMap (commandOf id) = [] := by
    intro entry
    cases entry <;> exact ⟨rfl, rfl⟩
  cases hmoves with
  | idle => exact continues_quiet h hmachine rfl rfl
  | failed => exact continues_quiet h hmachine rfl rfl
  | commanded other command found hfound halive hroom =>
    by_cases hid : id = other
    · subst hid
      obtain rfl := Option.some.inj (hmachine.symm.trans hfound)
      refine ⟨_, [], waiting ++ [.command command], by rw [machine_setMachine, if_pos rfl], ?_, ?_,
        ?_⟩
      · unfold Follows Machine.withCommand
        rw [h, List.append_nil, List.append_assoc]
      · simp [turnOf]
      · simp [commandOf]
    · exact continues_quiet h ((machine_setMachine_of_ne hid _).trans hmachine)
        (by simp [turnOf]) (by simp [commandOf, Ne.symm hid])
  | turned other found hfound hposition halive =>
    by_cases hid : id = other
    · subst hid
      obtain rfl := Option.some.inj (hmachine.symm.trans hfound)
      have hsame : stopped (runner routerState () iterations).1 = false := by
        rw [h] at halive
        exact halive
      obtain ⟨hrunner, hturns⟩ := runner_concat hsame ⟨waiting, ()⟩
      have hreceive : receive machine.runner [] =
          receive (runner routerState () iterations).1 waiting := by
        refine receive_congr ?_ ?_
        · rw [h, List.append_nil]
        · rw [h]
      refine ⟨_, [⟨waiting, ()⟩], [], by rw [machine_setMachine, if_pos rfl], ?_, ?_, ?_⟩
      · unfold Follows
        rw [(runner_turn machine).1, hreceive, hrunner, List.append_nil]
      · rw [hturns, (runner_turn machine).1, hreceive]
        simp [turnOf]
      · simp [commandOf]
    · exact continues_quiet h ((machine_setMachine_of_ne hid _).trans hmachine)
        (by simp [turnOf, Ne.symm hid]) (by simp [commandOf])
  | worked other instant found k threads entry hfound hposition hstep =>
    obtain ⟨hturns, hcommands⟩ := heffect entry
    by_cases hid : id = other
    · subst hid
      obtain rfl := Option.some.inj (hmachine.symm.trans hfound)
      have hafter : Follows (machine.after k (threads.thread (id, k))) iterations waiting := by
        rcases after_cases machine k (threads.thread (id, k)) with ⟨-, hafter⟩ | ⟨-, hafter⟩
        · rw [hafter]
          exact h
        · rw [hafter]
          exact h
      exact continues_quiet hafter (by rw [machine_setMachine, if_pos rfl]) hturns hcommands
    · exact continues_quiet h ((machine_setMachine_of_ne hid _).trans hmachine) hturns hcommands
  | outside _ inner threads entry houtside hstep =>
    obtain ⟨hturns, hcommands⟩ := heffect entry
    exact continues_quiet h hmachine hturns hcommands

theorem continues_run {events : List (RouterMachines.Event κ)} {log : List (Report κ)}
    (h : Follows machine iterations waiting) (hmachine : state.machine id = some machine)
    (hrun : RouterMachines.run forms state events = .ok (state', log)) :
    Continues state' id log iterations waiting := by
  induction events generalizing state log machine iterations waiting with
  | nil =>
    obtain ⟨rfl, rfl⟩ := Prod.mk.inj (Except.ok.inj hrun)
    exact continues_quiet h hmachine rfl rfl
  | cons event rest ih =>
    obtain ⟨next, report, later, hmoves, hrest, rfl⟩ := run_cons hrun
    obtain ⟨machine', more, waiting', hmachine', h', hturns, hcommands⟩ :=
      follows_moves h hmachine hmoves
    obtain ⟨machine'', more', waiting'', hmachine'', h'', hturns', hcommands'⟩ :=
      ih h' hmachine' hrest
    refine ⟨machine'', more ++ more', waiting'', hmachine'', ?_, ?_, ?_⟩
    · rw [← List.append_assoc]
      exact h''
    · rw [← List.append_assoc, hturns', hturns, List.filterMap_append, List.append_assoc]
    · rw [List.filterMap_append, ← List.append_assoc, hcommands, List.append_assoc, hcommands',
        List.flatMap_append, List.append_assoc]

end Runners

section Sample

/-- Two machines with a process each, joined by a channel. -/
def linkedMachines : Machines ℕ where
  machine := fun id => if id < 2 then some (.new 1) else none
  threads :=
    ⟨fun place => if place.2 = 0 then linkedThreads.thread place.1 else none, linkedThreads.shared⟩

/-- The first machine is started, works for one cycle, and is stopped. -/
def stoppingEvents : List (RouterMachines.Event ℕ) :=
  [.command 0 .Running, .turn 0] ++ List.replicate 9 (.work 0 ⟨.acquired, 0⟩) ++
    [.command 0 .Stopped, .turn 0, .work 0 ⟨.acquired, 0⟩]

theorem thread_linked {place : ℕ × ℕ} {self : Thread}
    (h : linkedMachines.threads.thread place = some self) :
    place.2 = 0 ∧ ∃ hosted, self = .start hosted := by
  have hthread : (if place.2 = 0 then linkedThreads.thread place.1 else none) = some self := h
  by_cases hzero : place.2 = 0
  · rw [if_pos hzero] at hthread
    refine ⟨hzero, ?_⟩
    rcases linkedThreads_cases hthread with ⟨-, rfl⟩ | ⟨-, rfl⟩
    · exact ⟨_, rfl⟩
    · exact ⟨_, rfl⟩
  · rw [if_neg hzero] at hthread
    cases hthread

theorem orderly_linked : Orderly linkedMachines := by
  refine ⟨?_, ?_⟩
  · intro id machine hmachine
    have hat : (if id < 2 then some (Machine.new 1) else none) = some machine := hmachine
    by_cases hlt : id < 2
    · rw [if_pos hlt] at hat
      obtain rfl := Option.some.inj hat
      refine ⟨?_, Nat.zero_le 1, ?_, ?_⟩
      · intro n
        constructor
        · intro hn
          obtain rfl : n = 0 := by
            have hone : n < 1 := hn
            omega
          have hids : id = 0 ∨ id = 1 := by omega
          rcases hids with rfl | rfl
          · exact ⟨_, rfl⟩
          · exact ⟨_, rfl⟩
        · intro hsome
          obtain ⟨self, hself⟩ := hsome
          obtain ⟨hzero, -⟩ := thread_linked hself
          show n < 1
          omega
      · intro n hn
        cases hn
      · intro n self hself _
        obtain ⟨-, hosted, rfl⟩ := thread_linked hself
        exact ⟨rfl, rfl⟩
    · rw [if_neg hlt] at hat
      cases hat
  · intro place self hself
    obtain ⟨-, hosted, rfl⟩ := thread_linked hself
    exact fun _ => rfl

end Sample

section Results
variable {κ : Type*} [DecidableEq κ]

/-- Each process makes one advertisement in every iteration in which its machine works: none is
left out or made twice, and the last one may be still to come. -/
theorem one_advertisement_per_cycle (forms : TextForms) (state : Machines κ)
    (horderly : Orderly state) (id : κ) (machine : Machine)
    (hmachine : state.machine id = some machine) (hbetween : machine.position = .between) (n : ℕ)
    (self : Thread) (hself : state.threads.thread (id, n) = some self)
    (events : List (RouterMachines.Event κ)) (state' : Machines κ) (log : List (Report κ))
    (hrun : RouterMachines.run forms state events = .ok (state', log)) :
    log.countP (publishes (id, n)) ≤ log.countP (begins id) ∧
      log.countP (begins id) ≤ log.countP (publishes (id, n)) + 1 ∧
      ∀ machine', state'.machine id = some machine' → machine'.position = .between →
        log.countP (publishes (id, n)) = log.countP (begins id) := by
  obtain ⟨found, self', hfound, -, hbalance⟩ := balanced_run horderly hmachine hself hrun
  rw [dueAt_between hbetween] at hbalance
  have hdue := dueAt_le found n self'
  refine ⟨by omega, by omega, ?_⟩
  intro machine' hmachine' hbetween'
  obtain rfl := Option.some.inj (hfound.symm.trans hmachine')
  rw [dueAt_between hbetween'] at hbalance
  omega

theorem one_advertisement_per_cycle_linked :
    ∃ state' log, RouterMachines.run .sample linkedMachines stoppingEvents = .ok (state', log) ∧
      log.countP (begins 0) = 1 ∧ log.countP (publishes (0, 0)) = 1 := by
  obtain ⟨state', log, hrun, hbegins, machine', hmachine', hbetween'⟩ :
      ∃ state' log, RouterMachines.run .sample linkedMachines stoppingEvents = .ok (state', log) ∧
        log.countP (begins 0) = 1 ∧ ∃ machine', state'.machine 0 = some machine' ∧
          machine'.position = .between := ⟨_, _, rfl, by decide, _, rfl, rfl⟩
  obtain ⟨-, -, hcount⟩ := one_advertisement_per_cycle .sample linkedMachines orderly_linked 0 _ rfl
    rfl 0 _ rfl stoppingEvents state' log hrun
  exact ⟨state', log, hrun, hbegins, (hcount machine' hmachine' hbetween').trans hbegins⟩

/-- In every interleaving, a machine goes through the iterations of its runner alone, which meets
the commands in the order in which they were sent. -/
theorem turns_of_runner (forms : TextForms) (state : Machines κ) (id : κ) (processes : ℕ)
    (hmachine : state.machine id = some (.new processes))
    (events : List (RouterMachines.Event κ)) (state' : Machines κ) (log : List (Report κ))
    (hrun : RouterMachines.run forms state events = .ok (state', log)) :
    ∃ machine iterations waiting, state'.machine id = some machine ∧
      Follows machine iterations waiting ∧
      log.filterMap (turnOf id) =
        (runner routerState () iterations).2.map Turn.internalState ∧
      log.filterMap (commandOf id) = iterations.flatMap Iteration.arriving ++ waiting := by
  have hfollows : Follows (.new processes) [] [] := rfl
  obtain ⟨machine, more, waiting, hfound, hmore, hturns, hcommands⟩ :=
    continues_run hfollows hmachine hrun
  exact ⟨machine, more, waiting, hfound, hmore, hturns.symm, hcommands⟩

theorem turns_of_runner_linked :
    ∃ state' log, RouterMachines.run .sample linkedMachines stoppingEvents = .ok (state', log) ∧
      ∃ machine iterations waiting, state'.machine 0 = some machine ∧
        Follows machine iterations waiting ∧
        log.filterMap (turnOf 0) =
          (runner routerState () iterations).2.map Turn.internalState ∧
        log.filterMap (commandOf 0) = iterations.flatMap Iteration.arriving ++ waiting := by
  obtain ⟨state', log, hrun⟩ : ∃ state' log,
      RouterMachines.run .sample linkedMachines stoppingEvents = .ok (state', log) := ⟨_, _, rfl⟩
  exact ⟨state', log, hrun, turns_of_runner .sample linkedMachines 0 1 rfl _ state' log hrun⟩

/-- Once a Stop has been sent to a machine, no further iteration of its loop works. Each of its
processes makes at most the advertisement of the iteration that is under way, and after the
iteration in which the machine takes the Stop it does nothing any more. -/
theorem no_cycle_after_stop (forms : TextForms) (state : Machines κ) (horderly : Orderly state)
    (id : κ) (events : List (RouterMachines.Event κ)) (state' : Machines κ)
    (before after : List (Report κ))
    (hrun : RouterMachines.run forms state events =
      .ok (state', before ++ .commanded id .Stopped :: after)) :
    after.countP (begins id) = 0 ∧
      (∀ n self, state.threads.thread (id, n) = some self →
        after.countP (publishes (id, n)) ≤ 1) ∧
      ∀ earlier internalState later, after = earlier ++ .turned id internalState :: later →
        internalState = .Stopped ∧ later.countP (ofMachine id) = 0 := by
  obtain ⟨l₁, event, l₂, middle, next, -, hbefore, hstep, hafter⟩ :=
    Runs.collect_eq_append_cons hrun
  have hmiddle : Orderly middle := horderly.run hbefore
  have hmoves := machineMoves_of_step hstep
  have hnext : Orderly next := hmiddle.moves hmoves
  obtain ⟨⟨machine, hmachine, hqueue⟩, hsame⟩ : Ending next id ∧ next.threads = middle.threads := by
    generalize hreport : some (Report.commanded id InternalState.Stopped) = report at hmoves
    cases hmoves with
    | commanded other command found hfound halive hroom =>
      obtain ⟨rfl, rfl⟩ := Report.commanded.inj (Option.some.inj hreport)
      refine ⟨⟨_, by rw [machine_setMachine, if_pos rfl], ?_⟩, rfl⟩
      simp [Machine.withCommand, hroom]
    | idle => cases hreport
    | failed | turned => cases Option.some.inj hreport
    | worked other instant found k threads entry => cases entry <;> cases hreport
    | outside _ inner threads entry => cases entry <;> cases hreport
  obtain ⟨hnone, hend⟩ := ending_run ⟨machine, hmachine, hqueue⟩ hafter
  refine ⟨hnone, ?_, hend⟩
  intro n self hself
  obtain ⟨inner, hinner⟩ := threads_run hbefore
  have hsetting := setting_run hinner (id, n)
  rw [hself, Option.map_some, ← hsame] at hsetting
  obtain ⟨self', hself', -⟩ := Option.map_eq_some_iff.mp hsetting
  obtain ⟨found, last, -, -, hbalance⟩ := balanced_run hnext hmachine hself' hafter
  have hdue := dueAt_le machine n self'
  omega

theorem no_cycle_after_stop_linked :
    ∃ state' before after, RouterMachines.run .sample linkedMachines stoppingEvents =
        .ok (state', before ++ .commanded 0 .Stopped :: after) ∧
      after.countP (begins 0) = 0 ∧
      ∀ earlier internalState later, after = earlier ++ .turned 0 internalState :: later →
        internalState = .Stopped ∧ later.countP (ofMachine 0) = 0 := by
  obtain ⟨state', log, hrun, before, after, hlog⟩ : ∃ state' log,
      RouterMachines.run .sample linkedMachines stoppingEvents = .ok (state', log) ∧
        ∃ before after, log = before ++ .commanded 0 .Stopped :: after :=
    ⟨_, _, rfl, [_, _, _, _], _, rfl⟩
  rw [hlog] at hrun
  obtain ⟨hnone, -, hend⟩ := no_cycle_after_stop .sample linkedMachines orderly_linked 0
    stoppingEvents state' before after hrun
  exact ⟨state', before, after, hrun, hnone, hend⟩

end Results

end NetfabricBgp.MachineTurns
