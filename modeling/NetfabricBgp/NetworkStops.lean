import NetfabricBgp.Loops
import NetfabricBgp.Networks

/-!
Stopping a started network. The machines are listed in the order in which the map yields them,
and their runners go on while the loop sends to one after the other. The loop waits at a machine
whose channel is full and returns at the first one that cannot be reached, so a machine behind one
that has ended gets no command.
-/
namespace NetfabricBgp.NetworkStops

open RouterMasks Loops StateMachines StateMachineHandles Networks

abbrev RouterSm (σ : Type*) := List (Uuid × StateMachine σ)

/-- A call of `stop` under way: the machines, how many of them the loop is done with, and what was
returned. -/
structure Stopping (σ : Type*) where
  routerSm : RouterSm σ
  done : ℕ
  result : Option (Except NetworkManagerError Unit)

/-- The loop goes on, the runner of a machine takes its next step, or another sender on the
channel of a machine sends. -/
inductive Event (ε : Type*)
  | loop
  | runner (n : ℕ) (environment : ε)
  | arrive (n : ℕ) (message : Message)

namespace Stopping
variable {ε σ : Type*}

/-- The send at the machine that the loop has come to, with the place of a machine that was sent
the command. Behind the last one the loop is over. -/
def advance (self : Stopping σ) : Stopping σ × Option (ℕ × InternalState) :=
  match self.routerSm[self.done]? with
  | none => ({ self with result := some (.ok ()) }, none)
  | some (id, machine) =>
    match machine.stop with
    | .error e => ({ self with result := some (.error (.StateMachineError e)) }, none)
    | .ok none => (self, none)
    | .ok (some machine) =>
      ({ self with routerSm := self.routerSm.set self.done (id, machine), done := self.done + 1 },
        some (self.done, .Stopped))

def onMachine (self : Stopping σ) (n : ℕ) (f : StateMachine σ → StateMachine σ) : Stopping σ :=
  { self with routerSm := self.routerSm.modify n (fun entry => (entry.1, f entry.2)) }

def step (impl : State ε σ) (self : Stopping σ) :
    Event ε → Stopping σ × Option (ℕ × InternalState)
  | .loop => self.advance
  | .runner n environment => (self.onMachine n (·.advance impl environment), none)
  | .arrive n message => (self.onMachine n (·.arrive message), none)

def returned (self : Stopping σ) : Bool := self.result.isSome

end Stopping

/-- `stop`, while the other threads take their steps, until it returns. -/
def stop {ε σ : Type*} (impl : State ε σ) (routerSm : RouterSm σ) (events : List (Event ε)) :
    Stopping σ × List (Option (ℕ × InternalState)) :=
  loop Stopping.returned (Stopping.step impl) ⟨routerSm, 0, none⟩ events

/-- Each machine whose runner is alive has been sent the command, and is about to take it. -/
def Reaches {σ : Type*} (final : Stopping σ) (log : List (Option (ℕ × InternalState))) : Prop :=
  ∀ n entry, final.routerSm[n]? = some entry → entry.2.alive = true →
    some (n, .Stopped) ∈ log ∧ entry.2.Told

/-- If the machine that the loop has come to has ended, so have all behind it. -/
def NoneBehind {σ : Type*} (self : Stopping σ) : Prop :=
  ∀ entry, self.routerSm[self.done]? = some entry → entry.2.alive = false →
    ∀ n later, self.done < n → self.routerSm[n]? = some later → later.2.alive = false

section Steps
variable {ε σ : Type*} {impl : State ε σ} {self : Stopping σ} {event : Event ε}

theorem returned_eq_false_iff : self.returned = false ↔ self.result = none := by
  unfold Stopping.returned
  cases self.result <;> simp

/-- What a step of the loop does. -/
theorem advance_cases (self : Stopping σ) :
    (self.routerSm[self.done]? = none ∧
      self.advance = ({ self with result := some (.ok ()) }, none)) ∨
    ∃ id machine, self.routerSm[self.done]? = some (id, machine) ∧
      ((machine.alive = false ∧ self.advance = ({ self with
          result := some (.error (.StateMachineError (.MessageBusError .SendError))) }, none)) ∨
        (machine.alive = true ∧ self.advance = (self, none)) ∨
        (machine.alive = true ∧ self.advance = ({ self with
          routerSm := self.routerSm.set self.done (id, machine.withMessage (.command .Stopped))
          done := self.done + 1 }, some (self.done, .Stopped)))) := by
  unfold Stopping.advance
  cases hentry : self.routerSm[self.done]? with
  | none => exact Or.inl ⟨rfl, rfl⟩
  | some entry =>
    obtain ⟨id, machine⟩ := entry
    refine Or.inr ⟨id, machine, rfl, ?_⟩
    simp only [StateMachine.stop, StateMachine.sendCommand]
    rcases machine.send_cases (.command .Stopped) with ⟨hended, hsend⟩ | ⟨halive, hsend⟩ |
      ⟨halive, hsend⟩
    · exact Or.inl ⟨hended, by rw [hsend]⟩
    · exact Or.inr (Or.inr ⟨halive, by rw [hsend]⟩)
    · exact Or.inr (Or.inl ⟨halive, by rw [hsend]⟩)

theorem getElem?_onMachine (n m : ℕ) (f : StateMachine σ → StateMachine σ) :
    (self.onMachine n f).routerSm[m]? =
      (self.routerSm[m]?).map (fun entry => if n = m then (entry.1, f entry.2) else entry) := by
  show (self.routerSm.modify n _)[m]? = _
  rw [List.getElem?_modify]
  by_cases h : n = m <;> simp [h]

/-- A step that returns is one of the loop, and moves no machine. -/
theorem returned_of_step (hbefore : self.result = none)
    (hafter : (self.step impl event).1.result ≠ none) :
    event = .loop ∧ (self.step impl event).2 = none ∧
      (self.step impl event).1.routerSm = self.routerSm ∧
      (self.step impl event).1.done = self.done ∧
      (self.routerSm[self.done]? = none ∨
        ∃ entry, self.routerSm[self.done]? = some entry ∧ entry.2.alive = false) := by
  cases event with
  | loop =>
    show _ ∧ self.advance.2 = none ∧ self.advance.1.routerSm = self.routerSm ∧
      self.advance.1.done = self.done ∧ _
    have hreturned : self.advance.1.result ≠ none := hafter
    rcases advance_cases self with ⟨hover, hstep⟩ | ⟨id, machine, hentry, ⟨hended, hstep⟩ |
      ⟨-, hstep⟩ | ⟨-, hstep⟩⟩
    · rw [hstep]
      exact ⟨rfl, rfl, rfl, rfl, Or.inl hover⟩
    · rw [hstep]
      exact ⟨rfl, rfl, rfl, rfl, Or.inr ⟨_, hentry, hended⟩⟩
    · rw [hstep] at hreturned
      exact absurd hbefore hreturned
    · rw [hstep] at hreturned
      exact absurd hbefore hreturned
  | runner n environment => exact absurd hbefore hafter
  | arrive n message => exact absurd hbefore hafter

end Steps

section Sent
variable {ε σ : Type*} {impl : State ε σ} {self : Stopping σ} {event : Event ε}
  {log : List (Option (ℕ × InternalState))}

/-- The machines that the loop is done with are those that were sent the command. -/
structure Sent (call : Stopping σ) (log : List (Option (ℕ × InternalState))) : Prop where
  sent_iff : ∀ n, some (n, .Stopped) ∈ log ↔ n < call.done
  told : ∀ n entry, call.routerSm[n]? = some entry → n < call.done → entry.2.Told

theorem Sent.onMachine (h : Sent self log) (n : ℕ) (f : StateMachine σ → StateMachine σ)
    (hf : ∀ machine : StateMachine σ, machine.Told → (f machine).Told) :
    Sent (self.onMachine n f) (log ++ [none]) where
  sent_iff := by
    intro m
    show _ ↔ m < self.done
    simpa using h.sent_iff m
  told := by
    intro m entry hentry hlt
    rw [getElem?_onMachine] at hentry
    obtain ⟨before, hbefore, rfl⟩ := Option.map_eq_some_iff.mp hentry
    have htold := h.told m before hbefore hlt
    by_cases heq : n = m
    · rw [if_pos heq]
      exact hf before.2 htold
    · rwa [if_neg heq]

theorem Sent.step (h : Sent self log) (impl : State ε σ) (event : Event ε) :
    Sent (self.step impl event).1 (log ++ [(self.step impl event).2]) := by
  have hidle : Sent self (log ++ [none]) := ⟨fun n => by simpa using h.sent_iff n, h.told⟩
  cases event with
  | loop =>
    show Sent self.advance.1 (log ++ [self.advance.2])
    rcases advance_cases self with ⟨-, hstep⟩ | ⟨id, machine, hentry, ⟨-, hstep⟩ | ⟨-, hstep⟩ |
      ⟨-, hstep⟩⟩
    · rw [hstep]
      exact ⟨hidle.sent_iff, hidle.told⟩
    · rw [hstep]
      exact ⟨hidle.sent_iff, hidle.told⟩
    · rw [hstep]
      exact hidle
    · rw [hstep]
      constructor
      · intro n
        have hlog := h.sent_iff n
        simp only [List.mem_append, List.mem_singleton, Option.some.injEq, Prod.mk.injEq,
          and_true, hlog]
        omega
      · intro n entry hn hlt
        by_cases heq : self.done = n
        · subst heq
          have hlength := (List.getElem?_eq_some_iff.mp hentry).1
          rw [List.getElem?_set_self hlength] at hn
          obtain rfl := Option.some.inj hn
          exact StateMachine.Told.withMessage machine
        · rw [List.getElem?_set_ne heq] at hn
          refine h.told n entry hn ?_
          have hlt' : n < self.done + 1 := hlt
          omega
  | runner n environment =>
    exact h.onMachine n _ (fun _ htold => htold.advance impl environment)
  | arrive n message => exact h.onMachine n _ (fun _ htold => htold.arrive message)

theorem sent_stop (impl : State ε σ) (routerSm : RouterSm σ) (events : List (Event ε)) :
    Sent (stop impl routerSm events).1 (stop impl routerSm events).2 :=
  history (fun s _ outs => Sent s outs) (fun _ _ _ event _ h => h.step impl event)
    ⟨by simp, by simp⟩ events

/-- Who is alive when `stop` has returned was sent the command if the loop got there. -/
theorem reaches_iff_lt (h : Sent self log) :
    Reaches self log ↔
      ∀ n entry, self.routerSm[n]? = some entry → entry.2.alive = true → n < self.done := by
  constructor
  · intro hreaches n entry hentry halive
    exact (h.sent_iff n).mp (hreaches n entry hentry halive).1
  · intro hdone n entry hentry halive
    have hlt := hdone n entry hentry halive
    exact ⟨(h.sent_iff n).mpr hlt, h.told n entry hentry hlt⟩

end Sent

section Returns
variable {ε σ : Type*} {impl : State ε σ} {routerSm : RouterSm σ} {events : List (Event ε)}

/-- The step of the loop that returned: the machines are left as it found them. -/
theorem exists_returned (hreturned : (stop impl routerSm events).1.result ≠ none) :
    ∃ before after, events = before ++ .loop :: after ∧
      (stop impl routerSm before).1.result = none ∧
      (stop impl routerSm events).1.routerSm = (stop impl routerSm before).1.routerSm ∧
      (stop impl routerSm events).1.done = (stop impl routerSm before).1.done ∧
      ((stop impl routerSm before).1.routerSm[(stop impl routerSm before).1.done]? = none ∨
        ∃ entry, (stop impl routerSm before).1.routerSm[(stop impl routerSm before).1.done]? =
          some entry ∧ entry.2.alive = false) := by
  have hhalted : (stop impl routerSm events).1.returned = true :=
    Option.isSome_iff_ne_none.mpr hreturned
  obtain ⟨before, event, after, hevents, hgoing, hlast⟩ := exists_last rfl hhalted
  have hnone : (stop impl routerSm before).1.result = none := returned_eq_false_iff.mp hgoing
  have hfinal : (stop impl routerSm events).1 =
      ((stop impl routerSm before).1.step impl event).1 := congrArg Prod.fst hlast
  rw [hfinal] at hreturned ⊢
  obtain ⟨rfl, -, hsame, hdone, hwhy⟩ := returned_of_step hnone hreturned
  exact ⟨before, after, hevents, hnone, hsame, hdone, hwhy⟩

/-- A step of the loop at a machine that has ended returns. -/
theorem stop_of_ended {before after : List (Event ε)} {entry : Uuid × StateMachine σ}
    (hnone : (stop impl routerSm before).1.result = none)
    (hentry : (stop impl routerSm before).1.routerSm[(stop impl routerSm before).1.done]? =
      some entry) (hended : entry.2.alive = false) :
    (stop impl routerSm (before ++ .loop :: after)).1.routerSm =
        (stop impl routerSm before).1.routerSm ∧
      (stop impl routerSm (before ++ .loop :: after)).1.done =
        (stop impl routerSm before).1.done := by
  have hgoing : (stop impl routerSm before).1.returned = false := returned_eq_false_iff.mpr hnone
  have hstop : (stop impl routerSm (before ++ .loop :: after)).1 =
      (loop Stopping.returned (Stopping.step impl)
        (stop impl routerSm before).1.advance.1 after).1 := by
    unfold stop at hgoing ⊢
    rw [loop_append, loop_cons hgoing]
    rfl
  rcases advance_cases (stop impl routerSm before).1 with ⟨hover, -⟩ |
    ⟨id, machine, hmachine, ⟨-, hstep⟩ | ⟨halive, -⟩ | ⟨halive, -⟩⟩
  · rw [hover] at hentry
    cases hentry
  · rw [hstep, loop_of_halted rfl] at hstop
    rw [hstop]
    exact ⟨rfl, rfl⟩
  · obtain rfl := Option.some.inj (hmachine.symm.trans hentry)
    rw [hended] at halive
    cases halive
  · obtain rfl := Option.some.inj (hmachine.symm.trans hentry)
    rw [hended] at halive
    cases halive

/-- A call that has returned has sent the command to every live machine just if, whenever its loop
came to a machine that had ended, those behind had ended too. -/
theorem reaches_iff_noneBehind (hreturned : (stop impl routerSm events).1.result ≠ none) :
    Reaches (stop impl routerSm events).1 (stop impl routerSm events).2 ↔
      ∀ before after, events = before ++ .loop :: after →
        (stop impl routerSm before).1.result = none →
          NoneBehind (stop impl routerSm before).1 := by
  rw [reaches_iff_lt (sent_stop impl routerSm events)]
  constructor
  · rintro hreaches before after rfl hnone entry hentry hended n later hlt hlater
    obtain ⟨hsame, hdone⟩ := @stop_of_ended _ _ impl routerSm before after _ hnone hentry hended
    rw [hsame, hdone] at hreaches
    by_contra halive
    have hlt' := hreaches n later hlater (by simpa using halive)
    omega
  · intro hbehind n entry hentry halive
    obtain ⟨before, after, hevents, hnone, hsame, hdone, hwhy⟩ := exists_returned hreturned
    rw [hsame] at hentry
    rw [hdone]
    by_contra hlt
    rcases hwhy with hover | ⟨first, hfirst, hended⟩
    · have hlength := (List.getElem?_eq_some_iff.mp hentry).1
      have hlength' := List.getElem?_eq_none_iff.mp hover
      omega
    · rcases Nat.lt_or_eq_of_le (Nat.le_of_not_lt hlt) with hbeyond | heq
      · have hdead := hbehind before after hevents hnone first hfirst hended n entry hbeyond hentry
        rw [halive] at hdead
        cases hdead
      · subst heq
        obtain rfl := Option.some.inj (hfirst.symm.trans hentry)
        rw [halive] at hended
        cases hended

end Returns

section Resting
variable {ε σ : Type*} {impl : State ε σ} {routerSm : RouterSm σ} {events : List (Event ε)}
  {self : Stopping σ}

/-- Where the loop has not been yet, the runners are as alive as at its start. Where it has been,
they were alive. -/
structure Kept (routerSm : RouterSm σ) (call : Stopping σ) : Prop where
  length : call.routerSm.length = routerSm.length
  ahead : ∀ n entry first, call.done ≤ n → call.routerSm[n]? = some entry →
    routerSm[n]? = some first → entry.2.Steady ∧ entry.2.alive = first.2.alive
  passed : ∀ n first, n < call.done → routerSm[n]? = some first → first.2.alive = true

theorem Kept.loop (h : Kept routerSm self) : Kept routerSm self.advance.1 := by
  rcases advance_cases self with ⟨-, hstep⟩ | ⟨id, machine, hentry, ⟨-, hstep⟩ | ⟨-, hstep⟩ |
    ⟨halive, hstep⟩⟩
  · rw [hstep]
    exact ⟨h.length, h.ahead, h.passed⟩
  · rw [hstep]
    exact ⟨h.length, h.ahead, h.passed⟩
  · rw [hstep]
    exact h
  · rw [hstep]
    refine ⟨?_, ?_, ?_⟩
    · show (self.routerSm.set _ _).length = _
      rw [List.length_set, h.length]
    · intro n entry first hlt hn hfirst
      have hlt' : self.done + 1 ≤ n := hlt
      have hne : self.done ≠ n := by omega
      refine h.ahead n entry first (by omega) ?_ hfirst
      rwa [List.getElem?_set_ne hne] at hn
    · intro n first hlt hfirst
      have hlt' : n < self.done + 1 := hlt
      rcases Nat.lt_or_eq_of_le (Nat.le_of_lt_succ hlt') with hbefore | rfl
      · exact h.passed n first hbefore hfirst
      · rw [← (h.ahead _ _ first (Nat.le_refl _) hentry hfirst).2]
        exact halive

theorem Kept.runner (h : Kept routerSm self)
    (hworks : ∀ environment state, (impl.work environment state).2 ≠ .Stop) (n : ℕ)
    (environment : ε) : Kept routerSm (self.onMachine n (·.advance impl environment)) where
  length := by
    show (self.routerSm.modify _ _).length = _
    rw [List.length_modify, h.length]
  ahead := by
    intro m entry first hle hentry hfirst
    rw [getElem?_onMachine] at hentry
    obtain ⟨before, hbefore, rfl⟩ := Option.map_eq_some_iff.mp hentry
    obtain ⟨hsteady, halive⟩ := h.ahead m before first hle hbefore hfirst
    by_cases heq : n = m
    · rw [if_pos heq]
      obtain ⟨hsteady', halive'⟩ := hsteady.advance hworks environment
      exact ⟨hsteady', halive'.trans halive⟩
    · rw [if_neg heq]
      exact ⟨hsteady, halive⟩
  passed := h.passed

theorem kept_stop (hworks : ∀ environment state, (impl.work environment state).2 ≠ .Stop)
    (hsteady : ∀ entry ∈ routerSm, entry.2.Steady)
    (hown : ∀ n message, Event.arrive n message ∉ events) :
    Kept routerSm (stop impl routerSm events).1 := by
  have hstart : Kept routerSm ⟨routerSm, 0, none⟩ := by
    refine ⟨rfl, ?_, fun n first hlt => absurd hlt (Nat.not_lt_zero n)⟩
    intro n entry first _ hentry hfirst
    obtain rfl := Option.some.inj (hentry.symm.trans hfirst)
    exact ⟨hsteady entry (List.mem_of_getElem? hentry), rfl⟩
  refine history (fun s ins _ => (∀ n message, Event.arrive n message ∉ ins) → Kept routerSm s)
    ?_ (fun _ => hstart) events (fun n message hmem => hown n message (List.mem_of_mem_take hmem))
  intro s ins outs event _ ih hnone
  have hkept := ih (fun n message hmem => hnone n message (List.mem_append_left _ hmem))
  cases event with
  | loop => exact hkept.loop
  | runner n environment => exact hkept.runner hworks n environment
  | arrive n message => exact absurd (List.mem_append_right _ List.mem_cons_self) (hnone n message)

/-- If nothing but the loop can end a runner, only those that had ended before count. -/
theorem reaches_iff_pairwise
    (hworks : ∀ environment state, (impl.work environment state).2 ≠ .Stop)
    (hsteady : ∀ entry ∈ routerSm, entry.2.Steady)
    (hown : ∀ n message, Event.arrive n message ∉ events)
    (hreturned : (stop impl routerSm events).1.result ≠ none) :
    Reaches (stop impl routerSm events).1 (stop impl routerSm events).2 ↔
      routerSm.Pairwise (fun before after => before.2.alive = false → after.2.alive = false) := by
  have hkept := kept_stop hworks hsteady hown
  obtain ⟨before, after, -, -, hsame, hdone, hwhy⟩ := exists_returned hreturned
  rw [← hsame, ← hdone] at hwhy
  rw [reaches_iff_lt (sent_stop impl routerSm events), List.pairwise_iff_getElem]
  constructor
  · intro hreaches i j hi hj hij hended
    by_contra halive
    have hle : (stop impl routerSm events).1.done ≤ i := by
      by_contra hlt
      have hwas := hkept.passed i _ (Nat.lt_of_not_le hlt) (List.getElem?_eq_getElem hi)
      rw [hended] at hwas
      cases hwas
    have hj' : j < (stop impl routerSm events).1.routerSm.length := hkept.length ▸ hj
    have hnow := (hkept.ahead j _ _ (by omega) (List.getElem?_eq_getElem hj')
      (List.getElem?_eq_getElem hj)).2
    have hlt := hreaches j _ (List.getElem?_eq_getElem hj') (hnow.trans (by simpa using halive))
    omega
  · intro hpairs n entry hentry halive
    by_contra hlt
    have hn := (List.getElem?_eq_some_iff.mp hentry).1
    have hn' : n < routerSm.length := hkept.length ▸ hn
    rcases hwhy with hover | ⟨first, hfirst, hended⟩
    · have hlength := List.getElem?_eq_none_iff.mp hover
      omega
    · have hd' := hkept.length ▸ (List.getElem?_eq_some_iff.mp hfirst).1
      have hwas := (hkept.ahead _ _ _ (Nat.le_refl _) hfirst (List.getElem?_eq_getElem hd')).2
      have hnow := (hkept.ahead n _ _ (by omega) hentry (List.getElem?_eq_getElem hn')).2
      rcases Nat.lt_or_eq_of_le (Nat.le_of_not_lt hlt) with hbeyond | heq
      · have hdead := hpairs _ n hd' hn' hbeyond (hwas.symm.trans hended)
        rw [hnow, hdead] at halive
        cases halive
      · subst heq
        obtain rfl := Option.some.inj (hfirst.symm.trans hentry)
        rw [halive] at hended
        cases hended

end Resting

/-- Stopping the network delivers the command to every live machine exactly when the loop never
comes to a machine that has ended while one behind it is alive. Unless something else than the
loop ends a runner meanwhile, this is seen at the start: in the order of the iteration, no live
machine stands behind one that has ended. -/
theorem stop_reaches_iff {ε σ : Type*} (impl : State ε σ) (routerSm : RouterSm σ)
    (events : List (Event ε)) (hreturned : (stop impl routerSm events).1.result ≠ none) :
    (Reaches (stop impl routerSm events).1 (stop impl routerSm events).2 ↔
      ∀ before after, events = before ++ .loop :: after →
        (stop impl routerSm before).1.result = none →
          NoneBehind (stop impl routerSm before).1) ∧
    ((∀ environment state, (impl.work environment state).2 ≠ .Stop) →
      (∀ entry ∈ routerSm, entry.2.Steady) → (∀ n message, Event.arrive n message ∉ events) →
        (Reaches (stop impl routerSm events).1 (stop impl routerSm events).2 ↔
          routerSm.Pairwise
            (fun before after => before.2.alive = false → after.2.alive = false))) :=
  ⟨reaches_iff_noneBehind hreturned,
    fun hworks hsteady hown => reaches_iff_pairwise hworks hsteady hown hreturned⟩

/-- A router that works on, as all of them do. -/
def working : State Unit Unit := ⟨fun _ state => (state, .Continue), fun _ state => state⟩

/-- Two routers run, the first of which has still to take a command, and a third one has ended. -/
def endedLast : RouterSm Unit :=
  [(1, ⟨11, ⟨[.command .Running], .Paused, ()⟩, .receiving, nofun⟩),
    (2, ⟨12, ⟨[], .Running, ()⟩, .acting, nofun⟩), (3, ⟨13, ⟨[], .Stopped, ()⟩, .returned, nofun⟩)]

/-- The loop waits for the first runner, which takes its command meanwhile. -/
def waited : List (Event Unit) := [.loop, .runner 0 (), .loop, .runner 1 (), .loop, .loop]

theorem stop_reaches_iff_waited :
    (stop working endedLast waited).2 =
        [none, none, some (0, .Stopped), none, some (1, .Stopped), none] ∧
      Reaches (stop working endedLast waited).1 (stop working endedLast waited).2 := by
  have hreturned : (stop working endedLast waited).1.result ≠ none := by
    show some _ ≠ none
    exact nofun
  refine ⟨rfl, ((stop_reaches_iff working endedLast waited hreturned).2 ?_ ?_ ?_).mpr ?_⟩
  · intro environment state
    exact nofun
  · simp [endedLast, StateMachine.Steady, Message.effect, Message.cast, StateMachine.alive]
  · simp [waited]
  · simp [endedLast, StateMachine.alive]

/-- The first router has ended and the second one runs. -/
def endedFirst : RouterSm Unit :=
  [(1, ⟨11, ⟨[], .Stopped, ()⟩, .returned, nofun⟩), (2, ⟨12, ⟨[], .Running, ()⟩, .acting, nofun⟩)]

/-- The running router gets no command. -/
theorem stop_not_reaches_endedFirst :
    (stop working endedFirst [.loop]).1.result =
        some (.error (.StateMachineError (.MessageBusError .SendError))) ∧
      ¬ Reaches (stop working endedFirst [.loop]).1 (stop working endedFirst [.loop]).2 := by
  refine ⟨rfl, ?_⟩
  intro hreaches
  have hsent := (hreaches 1 _ rfl rfl).1
  exact absurd hsent (by decide)

/-- Both routers run, and a command to stop waits for each. -/
def stoppedTwice : RouterSm Unit :=
  [(1, ⟨11, ⟨[.command .Stopped], .Running, ()⟩, .receiving, nofun⟩),
    (2, ⟨12, ⟨[.command .Stopped], .Running, ()⟩, .receiving, nofun⟩)]

/-- The first runner takes its command and returns while the loop waits for room. -/
example : (stop working stoppedTwice [.loop, .runner 0 (), .runner 0 (), .loop]).1.result =
    some (.error (.StateMachineError (.MessageBusError .SendError))) := rfl

end NetfabricBgp.NetworkStops
