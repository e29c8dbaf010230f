import NetfabricBgp.NetRefinements

/-!
Whole runs of threads as runs of speakers that are joined by queues. So whatever the
interleaving, what a process applies is a merge of what was put on its channels, each in its
order and nothing twice, and where nothing is lost, nothing is missing.
-/
namespace NetfabricBgp.NetRuns

open Addresses RouterMasks Ribs RibInterfaces Advertisements BoundedQueues Channels Interfaces
  Sessions Processes Supplies LinkThreads ClientTables Routers QuietNetworks ProcessThreads
  ThreadSteps ThreadHistories Speakers Flows Origins Spreads SpreadRuns QueueNets NetRefinements

section Steps
variable {forms : TextForms} {ι : Type*} [DecidableEq ι] {wiring : Wiring ι} {state : Threads ι}
  {net : SpeakerNet ι} {i : ι} {self self' : Thread} {shared : Shared} {instant : Instant}
  {effect : Option Effect} {n : ℕ} {c : ChannelId} {interface : Interface}
  {condition : ChannelId → Prop}

/-- A session with nothing to send, or whose turn to send has come, changes nothing on its
link. -/
theorem unsentAt_send (hstage : self.stage = .send n)
    (had : self'.process.advertisement = self.process.advertisement) {m : ℕ}
    (hnext : self'.stage = .send (n + 1) ∧ (m = n → self.process.advertisement = []) ∨
      self'.stage = .sending n self.process.advertisement) :
    unsentAt self' m = unsentAt self m := by
  unfold unsentAt
  rcases hnext with ⟨hstage', hm⟩ | hstage'
  · simp only [hstage, hstage', had]
    by_cases hn : m = n
    · simp [hn, hm hn]
    · simp only [show n + 1 ≤ m ↔ n ≤ m by omega]
  · simp only [hstage, hstage', had]
    by_cases hn : n = m
    · simp [hn]
    · simp only [hn, if_false, show n < m ↔ n ≤ m by omega]

/-- A step that is taken before there is anything to send. -/
theorem performs_hearing (h : Abstracts wiring state net) (hself : state.thread i = some self)
    (hhearing : Hearing self.stage) (hdesk : deskOf self' = deskOf self)
    (hin : ∀ n, incomingAt self' n = incomingAt self n) (hsending : ¬ Sending self'.stage) :
    Performs forms wiring net
      (after forms wiring net i self' none (Threads.setThread state i self' state.shared)) []
      condition := by
  refine h.quiet hself hdesk hin ?_
  intro m
  rw [unsentAt_of_not_sending (not_sending_of_hearing hhearing)]
  exact unsentAt_of_not_sending hsending

/-- A session goes on to the next when it has nothing to send. -/
theorem performs_sendNothing (h : Abstracts wiring state net)
    (hwired : Wired wiring (settings state)) (hself : state.thread i = some self)
    (hstage : self.stage = .send n) (hdesk : deskOf self' = deskOf self)
    (hin : ∀ n, incomingAt self' n = incomingAt self n)
    (had : self'.process.advertisement = self.process.advertisement)
    (hstage' : self'.stage = .send (n + 1))
    (hnothing : self.process.advertisement = [] ∨ self.interfaceAt n = none ∨
      ∃ interface, self.interfaceAt n = some interface ∧ interface.outChannel = none) :
    Performs forms wiring net
      (after forms wiring net i self' none (Threads.setThread state i self' state.shared)) []
      condition := by
  refine h.still hself rfl hdesk ?_
  intro c
  refine carried_setThread hself (fun k _ => hin k) rfl ?_
  intro m hm
  refine unsentAt_send hstage had (Or.inl ⟨hstage', ?_⟩)
  rintro rfl
  obtain ⟨own, hown, hownOut⟩ := hwired.at_of_source hself hm
  rcases hnothing with hnothing | hnone | ⟨interface, hat, hout⟩
  · exact hnothing
  · rw [hown] at hnone
    cases hnone
  · obtain rfl := Option.some.inj (hown.symm.trans hat)
    rw [hownOut] at hout
    cases hout

/-- The channel lets everything through, and the effect loses nothing on it. -/
def Lossless {ι : Type*} (settings : ι → Option Setting) (history : List (Option ι × Effect))
    (c : ChannelId) : Prop :=
  Clear settings c ∧ ∀ entry ∈ history, Spares c entry

/-- Each step of a thread is some acts of the speakers. Only what a buffer or a channel has no
room for, or a filter rejects, is lost. -/
theorem performs_steps (h : Abstracts wiring state net) (hwired : Wired wiring (settings state))
    (hself : state.thread i = some self)
    (hsteps : Steps forms instant state.shared self shared self' effect) :
    Performs forms wiring net
      (after forms wiring net i self' effect (Threads.setThread state i self' shared))
      ((effect.map (some i, ·)).bind noted).toList
      (Lossless (settings state) (effect.map (some i, ·)).toList) := by
  have htidy := h.tidy i self hself
  cases hsteps with
  | receiveUnset n hstage hat hlt =>
    have hhearing : Hearing self.stage := by
      rcases hstage with hstage | hstage <;> rw [hstage] <;> trivial
    exact performs_hearing h hself hhearing (deskOf_of_hearing hhearing).symm (fun _ => rfl) id
  | receiveTimedOut n interface hstage hat hin hlock =>
    have hhearing : Hearing self.stage := hstage ▸ trivial
    exact performs_hearing h hself hhearing (deskOf_of_hearing hhearing).symm (fun _ => rfl) id
  | receiveBegin n interface hstage hat hin hlock =>
    have hhearing : Hearing self.stage := hstage ▸ trivial
    exact performs_hearing h hself hhearing (deskOf_of_hearing hhearing).symm (fun _ => rfl) id
  | receiveDone n hstage hlen =>
    have hhearing : Hearing self.stage := hstage ▸ trivial
    have hdesk : deskOf (handedOver self) = deskOf self := by
      rw [deskOf_of_hearing hhearing]
      exact List.append_nil _
    exact performs_hearing h hself hhearing hdesk (fun _ => rfl) id
  | collect n interface hstage hat hnothing =>
    have hhearing : Hearing self.stage := by
      rcases hstage with hstage | hstage <;> rw [hstage] <;> trivial
    exact h.collect hwired hself hhearing hat
  | take n interface interface' id message rest hstage hat hin hqueue htake =>
    obtain ⟨ad, rfl, ⟨-, hroom, rfl⟩ | ⟨hreject, rfl⟩⟩ := take_eq_receiving htake
    · refine h.take hwired hself (hstage ▸ trivial) hat hin hqueue trivial ?_ (Or.inl rfl) rfl
      simp [Bounded.push, Message.cast, (hwired.keeps_at hself hat ad).1]
    · refine h.take hwired hself (hstage ▸ trivial) hat hin hqueue trivial
        (List.append_nil _).symm (Or.inr ⟨rfl, ?_⟩) rfl
      rintro ⟨hclear, -⟩
      have hkeep := (hclear i _ (portOf interface') ad (setting_of_thread hself)
        (port_mem hat)).1 hin
      rw [show ((portOf interface').inFilter ad).1 = false from hreject] at hkeep
      cases hkeep
  | discardForeign n interface id message rest hstage hat hin hqueue hcast =>
    refine h.take hwired hself (hstage ▸ trivial) hat hin hqueue trivial
      (List.append_nil _).symm (Or.inl ?_) rfl
    rw [hcast]
    rfl
  | discardFull n interface id ad rest hstage hat hin hqueue hkeep hfull =>
    refine h.discardFull hwired hself (hstage ▸ trivial) hat hin hqueue ?_
    exact fun hlossless => hlossless.2 _ List.mem_cons_self rfl
  | updateDone hstage =>
    refine h.quiet hself ?_ (fun _ => rfl) ?_
    · simp [deskOf, Thread.atStage, hstage]
    · intro m
      simp [unsentAt, Thread.atStage, hstage]
  | skip ad rest hstage hlock => exact h.miss hself hstage
  | apply ad rest rib ribInterface hstage hlock hupdate =>
    exact h.hear hself hstage rib ribInterface _
  | publish hstage => exact h.tell hwired hself hstage instant.timestamp
  | sendUnset n hstage hat hlt =>
    refine performs_sendNothing h hwired hself hstage ?_ (fun _ => rfl) rfl rfl
      (Or.inr (Or.inl hat))
    simp [deskOf, Thread.atStage, hstage]
  | sendNothing n interface hstage hat hnothing =>
    have hdesk : deskOf ((self.setInterface n (pushed self interface)).atStage (.send (n + 1))) =
        deskOf self := by
      simp [deskOf, Thread.atStage, Thread.setInterface, hstage]
    refine performs_sendNothing h hwired hself hstage hdesk
      (fun k => incomingAt_same hat (pushed_incoming self interface) k) rfl rfl ?_
    by_cases hout : interface.outChannel = none
    · exact Or.inr (Or.inr ⟨interface, hat, hout⟩)
    · have hempty := hnothing.resolve_right hout
      rw [pushed_items htidy (htidy.interfaces n interface hat) hout] at hempty
      exact Or.inl hempty
  | sendBegin n interface hstage hat hout =>
    refine h.quiet hself ?_ ?_ ?_
    · simp [deskOf, Thread.atStage, Thread.setInterface, hstage]
    · intro k
      have hsame : (emptied (pushed self interface)).incomingAdvertisements =
          interface.incomingAdvertisements := pushed_incoming self interface
      exact incomingAt_same hat hsame k
    · intro m
      refine unsentAt_send hstage ?_ (Or.inr ?_)
      · rfl
      · rw [← pushed_items htidy (htidy.interfaces n interface hat) hout]
        rfl
  | sendDone n hstage hlen =>
    refine h.still hself rfl (by simp [deskOf, cleared, hstage]) ?_
    intro c
    refine carried_setThread hself (fun _ _ => rfl) rfl ?_
    intro m hm
    obtain ⟨own, hown, -⟩ := hwired.at_of_source hself hm
    have hlength := lt_length_of_interfaceAt hown
    have hnot : ¬ n ≤ m := by omega
    simp [unsentAt, cleared, hstage, hnot]
  | sendingDone n rest hstage hrest =>
    refine h.still hself rfl (deskOf_sending hstage trivial) ?_
    intro c
    refine carried_setThread hself (fun _ _ => rfl) rfl ?_
    intro m hm
    by_cases hn : m = n
    · subst hn
      have hnil : rest = [] := by
        obtain ⟨own, hown, hownOut⟩ := hwired.at_of_source hself hm
        rcases hrest with hrest | hnone | ⟨interface, hat, hout⟩
        · exact hrest
        · rw [hown] at hnone
          cases hnone
        · obtain rfl := Option.some.inj (hown.symm.trans hat)
          rw [hownOut] at hout
          cases hout
      simp [unsentAt, Thread.atStage, hstage, hnil]
    · exact @unsentAt_sending_of_ne self n rest [] hstage _ (Or.inr rfl) m hn
  | filterOut n interface ad rest hstage hat hkeep =>
    cases hout : interface.outChannel with
    | none =>
      refine h.still hself rfl (deskOf_sending hstage trivial) ?_
      intro c
      refine carried_setThread hself (fun _ _ => rfl) rfl ?_
      intro m hm
      have hne : m ≠ n := by
        rintro rfl
        obtain ⟨own, hown, hownOut⟩ := hwired.at_of_source hself hm
        obtain rfl := Option.some.inj (hat.symm.trans hown)
        rw [hout] at hownOut
        cases hownOut
      exact unsentAt_sending_of_ne hstage (Or.inl rfl) hne
    | some c =>
      refine @Abstracts.unsend forms _ _ _ _ _ _ _ _ _ _ _ _ h hwired hself [ad] rest hstage hat
        hout _ (Or.inl rfl) ?_ rfl
      rintro ⟨hclear, -⟩
      have hpass := (hclear i _ (portOf interface) ad (setting_of_thread hself)
        (port_mem hat)).2 hout
      rw [show ((portOf interface).outFilter ad).1 = false from hkeep] at hpass
      cases hpass
  | put n interface ad rest id channel hstage hat hout hkeep hsend =>
    rw [(hwired.keeps_at hself hat ad).2] at hsend ⊢
    exact h.put hwired hself hstage hat hout hsend
  | refuse n interface ad rest id e hstage hat hout hkeep hsend =>
    refine @Abstracts.unsend forms _ _ _ _ _ _ _ _ _ _ _ _ h hwired hself (ad :: rest) [] ?_ hat
      hout _ (Or.inr ⟨rfl, rfl⟩) ?_ rfl
    · rw [List.append_nil]
      exact hstage
    · exact fun hlossless => hlossless.2 _ List.mem_cons_self rfl

end Steps

/-- Nothing comes from outside to a channel that a thread writes to. -/
def Sealed {ι : Type*} (wiring : Wiring ι) : Option ι × Effect → Prop
  | (none, .put c (.advertisement _)) => wiring.source c = none
  | _ => True

instance {ι : Type*} (wiring : Wiring ι) (entry : Option ι × Effect) :
    Decidable (Sealed wiring entry) :=
  match entry with
  | (none, .put c (.advertisement _)) => inferInstanceAs (Decidable (wiring.source c = none))
  | (none, .put _ (.foreign _)) => .isTrue trivial
  | (none, .take _ _) => .isTrue trivial
  | (none, .discard _ _) => .isTrue trivial
  | (none, .refuse _ _) => .isTrue trivial
  | (none, .apply _ _ _) => .isTrue trivial
  | (none, .skip _) => .isTrue trivial
  | (none, .publish _) => .isTrue trivial
  | (some _, _) => .isTrue trivial

/-- A channel whose content changes from outside. -/
theorem carried_outside {ι : Type*} {wiring : Wiring ι} {state : Threads ι} {c : ChannelId}
    {shared : Shared}
    (hothers : ∀ c', c' ≠ c → queuedOn shared c' = queuedOn state.shared c') :
    carried wiring ⟨state.thread, shared⟩ = Function.update (carried wiring state) c
      (heldAt incomingAt state (wiring.target c) ++ queuedOn shared c ++
        heldAt unsentAt state (wiring.source c)) := by
  funext c'
  by_cases hc : c' = c
  · subst hc
    rw [Function.update_self]
    rfl
  · rw [Function.update_of_ne hc, carried, carried, ← hothers c' hc]
    rfl

section Moving
variable {forms : TextForms} {ι : Type*} [DecidableEq ι] {wiring : Wiring ι}
  {state state' : Threads ι} {net : SpeakerNet ι} {event : Event ι}
  {output : Option (Option ι × Effect)} {events : List (Event ι)}
  {history : List (Option ι × Effect)}

theorem forall_of_act {i : ι} {self' : Thread} {shared : Shared}
    (hstate : state' = Threads.setThread state i self' shared) {P : ι → Thread → Prop}
    (hnew : P i self') (hold : ∀ j, j ≠ i → ∀ thread, state.thread j = some thread → P j thread)
    (j : ι) (thread : Thread) (hthread : state'.thread j = some thread) : P j thread := by
  rw [hstate] at hthread
  by_cases hj : j = i
  · subst hj
    rw [setThread_self] at hthread
    exact Option.some.inj hthread ▸ hnew
  · rw [setThread_of_ne state hj] at hthread
    exact hold j hj thread hthread

theorem moves_act {i : ι} {instant : Instant} (h : Abstracts wiring state net)
    (hwired : Wired wiring (settings state))
    (hmoves : Moves forms state (.act i instant) state' output) {self : Thread}
    (hself : state.thread i = some self) :
    ∃ net', Performs forms wiring net net' (output.bind noted).toList
        (Lossless (settings state) output.toList) ∧ Abstracts wiring state' net' := by
  obtain ⟨self', effect, hsteps, rfl, hrole⟩ := (h.role i self hself).moves_act hmoves
  obtain ⟨other, effect', -, hstate, -⟩ := act_cases hself hmoves
  have hpresent := hrole.present
  rw [hstate, setThread_self] at hpresent
  obtain rfl := Option.some.inj hpresent
  have hacts := performs_steps h hwired hself hsteps
  rw [← hstate] at hacts
  refine ⟨_, hacts, ?_, ?_, ?_, ?_, rfl⟩
  · refine forall_of_act hstate (by simpa [after] using hrole) ?_
    intro j hj thread hthread
    have hkept := (h.role j thread hthread).moves_other hmoves
      (fun instant' heq => hj (Event.act.inj heq).1.symm)
    simpa [after, Function.update_of_ne hj] using hkept
  · exact forall_of_act hstate ((h.tidy i self hself).steps hsteps) (fun j _ => h.tidy j)
  · exact forall_of_act hstate (deaf_steps (h.deaf i self hself) hsteps) (fun j _ => h.deaf j)
  · refine forall_of_act hstate (by simp [after]) ?_
    intro j hj thread hthread
    simpa [after, Function.update_of_ne hj] using h.inbox j thread hthread

/-- When no thread acts, only the links can change. -/
theorem abstracts_outside (h : Abstracts wiring state net)
    (hmoves : Moves forms state event state' output) (hthread : state'.thread = state.thread)
    (hevent : ∀ i instant, event ≠ .act i instant) {link : ChannelId → List Advertisement}
    (hlink : link = carried wiring state') :
    Abstracts wiring state' { net with link := link } := by
  refine ⟨?_, ?_, ?_, ?_, hlink⟩
  · intro i self hself
    rw [hthread] at hself
    exact (h.role i self hself).moves_other hmoves (hevent i)
  · rw [hthread]
    exact h.tidy
  · rw [hthread]
    exact h.deaf
  · rw [hthread]
    exact h.inbox

theorem moves_arrive {c : ChannelId} {message : Message} {channel : Channel}
    (h : Abstracts wiring state net)
    (hmoves : Moves forms state (.arrive c message)
      ⟨state.thread, Shared.setLink state.shared c channel⟩ output)
    (hsend : (state.shared.links c).trySend message = .ok channel)
    (hsource : ∀ ad, message = .advertisement ad → wiring.source c = none)
    {condition : ChannelId → Prop} :
    ∃ net', Performs forms wiring net net' ((some (none, .put c message)).bind noted).toList
        condition ∧
      Abstracts wiring ⟨state.thread, Shared.setLink state.shared c channel⟩ net' := by
  have hqueue : queuedOn (Shared.setLink state.shared c channel) c =
      queuedOn state.shared c ++ message.cast.toList := by
    unfold queuedOn Shared.setLink
    simp only [Function.update_self, Channel.items_of_trySend hsend, List.filterMap_append]
    cases message <;> rfl
  have hothers : ∀ c', c' ≠ c →
      queuedOn (Shared.setLink state.shared c channel) c' = queuedOn state.shared c' := by
    intro c' hc'
    apply queuedOn_of_items
    simp [Shared.setLink, Function.update_of_ne hc']
  have hcarried := @carried_outside _ wiring state c _ hothers
  rw [hqueue] at hcarried
  refine ⟨_, ?_, abstracts_outside h hmoves rfl (fun _ _ heq => by cases heq) rfl⟩
  rw [hcarried]
  cases message with
  | foreign type =>
    have hsame : heldAt incomingAt state (wiring.target c) ++
        (queuedOn state.shared c ++ (Message.foreign type).cast.toList) ++
          heldAt unsentAt state (wiring.source c) = carried wiring state c := by
      simp [carried, Message.cast]
    rw [hsame, Function.update_eq_self, ← h.link]
    exact performs_nil
  | advertisement ad =>
    have hnone := hsource ad rfl
    have hsame : heldAt incomingAt state (wiring.target c) ++
        (queuedOn state.shared c ++ (Message.advertisement ad).cast.toList) ++
          heldAt unsentAt state (wiring.source c) = net.link c ++ [ad] := by
      simp [h.link, carried, Message.cast, hnone, heldAt]
    rw [hsame, ← h.link]
    refine @performs_act _ _ _ _ _ _ _ (.arrive c ad) (some (.arrived c ad)) ?_
      (fun _ _ => not_false)
    simp [QueueNets.step, speakerNodes, hnone]

theorem moves_leave {c : ChannelId} {message : Message} {rest : List Message}
    (h : Abstracts wiring state net)
    (hmoves : Moves forms state (.leave c) ⟨state.thread, Shared.pop state.shared c⟩ output)
    (hqueue : (state.shared.links c).queue.items = message :: rest)
    {condition : ChannelId → Prop} (hc : ¬ condition c) :
    ∃ net', Performs forms wiring net net' [] condition ∧
      Abstracts wiring ⟨state.thread, Shared.pop state.shared c⟩ net' := by
  have hcarried := @carried_outside _ wiring state c _ (queuedOn_pop_of_ne hqueue)
  have hlink : net.link c = heldAt incomingAt state (wiring.target c) ++ (message.cast.toList ++
      (queuedOn (Shared.pop state.shared c) c ++ heldAt unsentAt state (wiring.source c))) := by
    rw [h.link, carried, queuedOn_pop hqueue, if_pos rfl, List.append_assoc, List.append_assoc]
  refine ⟨_, ?_, abstracts_outside h hmoves rfl (fun _ _ heq => by cases heq) rfl⟩
  rw [hcarried, List.append_assoc, ← h.link]
  refine performs_act (step_lose hlink) ?_
  rintro c' hc' rfl
  exact hc hc'

/-- Every event is some acts of the speakers. -/
theorem moves_abstracts (h : Abstracts wiring state net) (hwired : Wired wiring (settings state))
    (hmoves : Moves forms state event state' output)
    (hsealed : ∀ entry ∈ output, Sealed wiring entry) :
    ∃ net', Performs forms wiring net net' (output.bind noted).toList
        (Lossless (settings state) output.toList) ∧ Abstracts wiring state' net' := by
  cases hmoves with
  | absent i instant hthread => exact ⟨net, performs_nil, h⟩
  | act i instant self self' shared effect hthread hsteps =>
    exact moves_act h hwired (.act i instant self self' shared effect hthread hsteps) hthread
  | arrive c message channel hsend =>
    refine moves_arrive h (.arrive c message channel hsend) hsend ?_
    rintro ad rfl
    exact hsealed _ rfl
  | arriveFull c message e hsend => exact ⟨net, performs_nil, h⟩
  | leave c message rest hqueue =>
    refine moves_leave h (.leave c message rest hqueue) hqueue ?_
    exact fun hlossless => hlossless.2 _ List.mem_cons_self rfl
  | leaveNothing c hqueue => exact ⟨net, performs_nil, h⟩

theorem performs_append {net' net'' : SpeakerNet ι}
    {before later : List (Note ι ChannelId Advertisement)} {condition condition' : ChannelId → Prop}
    (h : Performs forms wiring net net' before condition)
    (h' : Performs forms wiring net' net'' later condition') :
    Performs forms wiring net net'' (before ++ later) (fun c => condition c ∧ condition' c) := by
  obtain ⟨acts, hrun, hacts⟩ := h
  obtain ⟨acts', hrun', hacts'⟩ := h'
  refine ⟨acts ++ acts', Runs.collect_append_ok hrun hrun', ?_⟩
  rintro c ⟨hc, hc'⟩ act hact
  rcases List.mem_append.mp hact with hact | hact
  · exact hacts c hc act hact
  · exact hacts' c hc' act hact

theorem performs_of_imp {net' : SpeakerNet ι} {notes : List (Note ι ChannelId Advertisement)}
    {condition condition' : ChannelId → Prop} (h : Performs forms wiring net net' notes condition)
    (himp : ∀ c, condition' c → condition c) : Performs forms wiring net net' notes condition' := by
  obtain ⟨acts, hrun, hacts⟩ := h
  exact ⟨acts, hrun, fun c hc => hacts c (himp c hc)⟩

/-- And so is every run. -/
theorem run_abstracts (h : Abstracts wiring state net) (hwired : Wired wiring (settings state))
    (hrun : ProcessThreads.run forms state events = .ok (state', history))
    (hsealed : ∀ entry ∈ history, Sealed wiring entry) :
    ∃ net', Performs forms wiring net net' (history.filterMap noted)
        (Lossless (settings state) history) ∧ Abstracts wiring state' net' := by
  induction events generalizing state history net with
  | nil =>
    obtain ⟨rfl, rfl⟩ := Prod.mk.inj (Except.ok.inj hrun)
    exact ⟨net, performs_nil, h⟩
  | cons event rest ih =>
    obtain ⟨next, output, later, hmoves, hrest, rfl⟩ := run_cons hrun
    obtain ⟨net', hnow, hnext⟩ := moves_abstracts h hwired hmoves
      (fun entry hentry => hsealed entry (List.mem_append_left _ (Option.mem_toList.mpr hentry)))
    have hsettings := settings_moves hmoves
    rw [← hsettings] at hwired
    obtain ⟨net'', hlater, hend⟩ := ih hnext hwired hrest
      (fun entry hentry => hsealed entry (List.mem_append_right _ hentry))
    refine ⟨net'', ?_, hend⟩
    have hnotes : (output.toList ++ later).filterMap noted =
        (output.bind noted).toList ++ later.filterMap noted := by
      rw [List.filterMap_append]
      cases output with
      | none => rfl
      | some entry => cases hnoted : noted entry <;> simp [hnoted]
    rw [hnotes]
    refine performs_of_imp (performs_append hnow hlater) ?_
    rintro c ⟨hclear, hspares⟩
    refine ⟨⟨hclear, fun entry hentry => hspares entry (List.mem_append_left _ hentry)⟩, ?_⟩
    rw [hsettings]
    exact ⟨hclear, fun entry hentry => hspares entry (List.mem_append_right _ hentry)⟩

end Moving

section Starting
variable {forms : TextForms} {ι : Type*} {wiring : Wiring ι} {state : Threads ι}

/-- Threads before their first cycle, with nothing on the channels that they read. -/
structure Initial {ι : Type*} (wiring : Wiring ι) (state : Threads ι) : Prop where
  silent : Silent state
  untouched : ∀ i self, state.thread i = some self → Untouched self
  empty : ∀ c i n, wiring.target c = some (i, n) → (state.shared.links c).queue.items = []

/-- Speakers that know nothing. -/
def startNet {ι : Type*} (wiring : Wiring ι) (state : Threads ι) : SpeakerNet ι where
  state := fun _ => .silent
  inbox := fun _ => []
  link := carried wiring state

theorem Initial.incoming (h : Initial wiring state) {i : ι} {self : Thread}
    (hself : state.thread i = some self) {n : ℕ} {interface : Interface}
    (hat : self.interfaceAt n = some interface) : interface.incomingAdvertisements.items = [] := by
  obtain ⟨hosted, hquiet, rfl⟩ := h.untouched i self hself
  obtain ⟨session, hsession, hinterface⟩ := Option.bind_eq_some_iff.mp hat
  exact (hquiet.sessions session (List.mem_of_getElem? hsession) interface hinterface).1

theorem Initial.stage (h : Initial wiring state) {i : ι} {self : Thread}
    (hself : state.thread i = some self) : self.stage = .receive 0 ∧ self.received = [] := by
  obtain ⟨hosted, -, rfl⟩ := h.untouched i self hself
  exact ⟨rfl, rfl⟩

theorem Initial.abstracts (h : Initial wiring state) :
    Abstracts wiring state (startNet wiring state) := by
  refine ⟨h.silent.role, h.silent.tidy, ?_, ?_, rfl⟩
  · exact fun i self hself n interface hat _ => h.incoming hself hat
  · intro i self hself
    obtain ⟨hreceive, hnone⟩ := h.stage hself
    rw [deskOf_of_hearing (by rw [hreceive]; trivial), hnone]
    rfl

theorem heldAt_eq_nil {content : Thread → ℕ → List Advertisement} (place : Option (ι × ℕ))
    (h : ∀ i self, state.thread i = some self → ∀ n, content self n = []) :
    heldAt content state place = [] := by
  cases place with
  | none => rfl
  | some place =>
    cases hself : state.thread place.1 with
    | none => simp [heldAt, hself]
    | some self => simp [heldAt, hself, h place.1 self hself]

theorem Initial.idle (h : Initial wiring state) :
    Idle (speakerNodes forms wiring) (startNet wiring state) := by
  refine ⟨fun _ => rfl, ?_⟩
  intro c i htarget
  obtain ⟨⟨j, n⟩, hplace, rfl⟩ := Option.map_eq_some_iff.mp htarget
  have hin : heldAt incomingAt state (wiring.target c) = [] := by
    refine heldAt_eq_nil _ ?_
    intro i self hself n
    unfold incomingAt
    cases hat : self.interfaceAt n with
    | none => rfl
    | some interface => exact h.incoming hself hat
  have hout : heldAt unsentAt state (wiring.source c) = [] := by
    refine heldAt_eq_nil _ ?_
    intro i self hself m
    apply unsentAt_of_not_sending
    rw [(h.stage hself).1]
    exact not_false
  show heldAt incomingAt state (wiring.target c) ++ queuedOn state.shared c ++
    heldAt unsentAt state (wiring.source c) = []
  rw [hin, hout, queuedOn, h.empty c j n hplace]
  rfl

end Starting

section Results
variable {ι : Type*} [DecidableEq ι] (forms : TextForms) (wiring : Wiring ι)

/-- The advertisements that were put on a channel: those that its source has published, and those
from outside. -/
def offeredTo (c : ChannelId) (history : List (Option ι × Effect)) : List Advertisement :=
  (history.filterMap noted).flatMap (offers (speakerNodes forms wiring) c)

/-- The advertisements that a process has applied to its RIB, or skipped without the lock. -/
def handledBy (i : ι) (history : List (Option ι × Effect)) : List Advertisement :=
  (history.filterMap noted).flatMap (handles i)

/-- What a process has to do with, and has done with, is a merge of what came over its
channels. -/
structure Merged (state' : Threads ι) (history : List (Option ι × Effect)) (i : ι)
    (thread : Thread) (log : List (ChannelId × Advertisement)) : Prop where
  all : log.map Prod.snd = handledBy i history ++ deskOf thread
  targets : ∀ entry ∈ log, ∃ n, wiring.target entry.1 = some (i, n)
  ordered : ∀ c n, wiring.target c = some (i, n) →
    (cameOver c log ++ carried wiring state' c).Sublist (offeredTo forms wiring c history)

variable {forms} {wiring}

theorem merged_of_initial {state state' : Threads ι} {events : List (Event ι)}
    {history : List (Option ι × Effect)} (h : Initial wiring state)
    (hwired : Wired wiring (settings state))
    (hrun : ProcessThreads.run forms state events = .ok (state', history))
    (hsealed : ∀ entry ∈ history, Sealed wiring entry) {i : ι} {self : Thread}
    (hself : state'.thread i = some self) :
    ∃ log, Merged forms wiring state' history i self log ∧
      ∀ c n, wiring.target c = some (i, n) → Lossless (settings state) history c →
        cameOver c log ++ carried wiring state' c = offeredTo forms wiring c history := by
  obtain ⟨net', ⟨acts, hacts, hlossless⟩, hend⟩ := run_abstracts h.abstracts hwired hrun hsealed
  obtain ⟨log, haccounts⟩ := h.idle.run hacts
  have htarget : ∀ c n, wiring.target c = some (i, n) →
      (speakerNodes forms wiring).target c = some i := by
    intro c n hc
    simp [speakerNodes, hc]
  have hlinks : ∀ c n, wiring.target c = some (i, n) → _ :=
    fun c n hc => haccounts.links i c (htarget c n hc)
  rw [hend.link] at hlinks
  refine ⟨log i, ⟨?_, ?_, ?_⟩, ?_⟩
  · rw [haccounts.inbox i, hend.inbox i self hself]
    rfl
  · intro entry hentry
    obtain ⟨⟨j, n⟩, hn, rfl⟩ := Option.map_eq_some_iff.mp (haccounts.targets i entry hentry)
    exact ⟨n, hn⟩
  · exact fun c n hc => (hlinks c n hc).1
  · exact fun c n hc hclear => (hlinks c n hc).2 (hlossless c hclear)

/-- Where no filter rewrites an advertisement, each channel has one writer and one reader at most,
each process has a RIB of its own, and from outside nothing comes to a channel that a thread writes
to: every interleaving of the threads, with each other and with messages from outside, is a run of
speakers that are joined by queues, with the same advertisements heard, missed and told, in the
same order. A link loses something only where a filter rejects it, a buffer or a channel has no
room for it, or it is taken away outside. -/
theorem refines_run (forms : TextForms) (wiring : Wiring ι) (state : Threads ι)
    (net : SpeakerNet ι) (habstracts : Abstracts wiring state net)
    (hwired : Wired wiring (settings state)) (events : List (Event ι)) (state' : Threads ι)
    (history : List (Option ι × Effect))
    (hrun : ProcessThreads.run forms state events = .ok (state', history))
    (hsealed : ∀ entry ∈ history, Sealed wiring entry) :
    ∃ acts net', QueueNets.run (speakerNodes forms wiring) net acts =
        .ok (net', history.filterMap noted) ∧ Abstracts wiring state' net' ∧
      ∀ c, Lossless (settings state) history c → ∀ act ∈ acts, ¬ Loses c act := by
  obtain ⟨net', ⟨acts, hacts, hlossless⟩, hend⟩ := run_abstracts habstracts hwired hrun hsealed
  exact ⟨acts, net', hacts, hend, hlossless⟩

end Results

section Sample

/-- The first thread hears from outside and tells the second, which tells no thread. -/
def linkedWiring : Wiring ℕ where
  source := fun c => if c = 1 then some (0, 0) else if c = 2 then some (1, 0) else none
  target := fun c => if c = 0 then some (0, 0) else if c = 1 then some (1, 0) else none
  voice := fun i =>
    settingOf (.start (if i = 0 then linkedProcess 1 0 0 1 else linkedProcess 2 1 1 2))

theorem port_linked {client : Uuid} {rib : RibId} {inChannel outChannel : ChannelId} {q : ℕ}
    {port : Port}
    (h : (settingOf (.start (linkedProcess client rib inChannel outChannel))).ports[q]?.join =
      some port) :
    q = 0 ∧ port.inChannel = some inChannel ∧ port.outChannel = some outChannel := by
  cases q with
  | zero =>
    obtain rfl := Option.some.inj h
    exact ⟨rfl, rfl, rfl⟩
  | succ q => cases h

theorem wired_linked : Wired linkedWiring (settings linkedThreads) := by
  have hcases : ∀ i setting, settings linkedThreads i = some setting →
      i = 0 ∧ setting = settingOf (.start (linkedProcess 1 0 0 1)) ∨
        i = 1 ∧ setting = settingOf (.start (linkedProcess 2 1 1 2)) := by
    intro i setting hsetting
    obtain ⟨self, hself, rfl⟩ := Option.map_eq_some_iff.mp hsetting
    rcases linkedThreads_cases hself with ⟨rfl, rfl⟩ | ⟨rfl, rfl⟩
    · exact Or.inl ⟨rfl, rfl⟩
    · exact Or.inr ⟨rfl, rfl⟩
  refine ⟨?_, ?_, ?_, ?_⟩
  · intro c i m
    constructor
    · intro hsource
      simp only [linkedWiring] at hsource
      by_cases hone : c = 1
      · rw [if_pos hone] at hsource
        obtain ⟨rfl, rfl⟩ := Prod.mk.inj (Option.some.inj hsource)
        exact ⟨_, _, rfl, rfl, congrArg some hone.symm⟩
      · rw [if_neg hone] at hsource
        by_cases htwo : c = 2
        · rw [if_pos htwo] at hsource
          obtain ⟨rfl, rfl⟩ := Prod.mk.inj (Option.some.inj hsource)
          exact ⟨_, _, rfl, rfl, congrArg some htwo.symm⟩
        · rw [if_neg htwo] at hsource
          cases hsource
    · rintro ⟨setting, port, hsetting, hport, hout⟩
      rcases hcases i setting hsetting with ⟨rfl, rfl⟩ | ⟨rfl, rfl⟩
      · obtain ⟨rfl, -, hown⟩ := port_linked hport
        obtain rfl := Option.some.inj (hown.symm.trans hout)
        rfl
      · obtain ⟨rfl, -, hown⟩ := port_linked hport
        obtain rfl := Option.some.inj (hown.symm.trans hout)
        rfl
  · intro c i n
    constructor
    · intro htarget
      simp only [linkedWiring] at htarget
      by_cases hzero : c = 0
      · rw [if_pos hzero] at htarget
        obtain ⟨rfl, rfl⟩ := Prod.mk.inj (Option.some.inj htarget)
        exact ⟨_, _, rfl, rfl, congrArg some hzero.symm⟩
      · rw [if_neg hzero] at htarget
        by_cases hone : c = 1
        · rw [if_pos hone] at htarget
          obtain ⟨rfl, rfl⟩ := Prod.mk.inj (Option.some.inj htarget)
          exact ⟨_, _, rfl, rfl, congrArg some hone.symm⟩
        · rw [if_neg hone] at htarget
          cases htarget
    · rintro ⟨setting, port, hsetting, hport, hin⟩
      rcases hcases i setting hsetting with ⟨rfl, rfl⟩ | ⟨rfl, rfl⟩
      · obtain ⟨rfl, hown, -⟩ := port_linked hport
        obtain rfl := Option.some.inj (hown.symm.trans hin)
        rfl
      · obtain ⟨rfl, hown, -⟩ := port_linked hport
        obtain rfl := Option.some.inj (hown.symm.trans hin)
        rfl
  · intro i setting hsetting
    rcases hcases i setting hsetting with ⟨rfl, rfl⟩ | ⟨rfl, rfl⟩
    · rfl
    · rfl
  · exact filtersKeep_linked

theorem initial_linked : Initial linkedWiring linkedThreads := by
  refine ⟨⟨?_, ?_⟩, unstarted_linked.threads, fun _ _ _ _ => rfl⟩
  · intro i self hself
    have hown : ∀ k other, linkedThreads.thread k = some other → other.rib = self.rib → k = i := by
      intro k other hother hrib
      rcases linkedThreads_cases hself with ⟨rfl, rfl⟩ | ⟨rfl, rfl⟩ <;>
        rcases linkedThreads_cases hother with ⟨rfl, rfl⟩ | ⟨rfl, rfl⟩ <;>
          first | rfl | cases hrib
    have hempty : ∀ client, Represents BgpRib.new client [] := by
      intro client
      exact represents_of_startsEmpty ⟨[], rfl, by simp⟩
    refine ⟨hself, ⟨hempty _, ?_⟩, hown⟩
    rcases linkedThreads_cases hself with ⟨-, rfl⟩ | ⟨-, rfl⟩ <;> rfl
  · intro i self hself
    have htidy : ∀ client rib inChannel outChannel,
        Tidy (.start (linkedProcess client rib inChannel outChannel)) := by
      intro client rib inChannel outChannel
      refine ⟨?_, Nat.zero_le 1, fun _ => rfl⟩
      intro n interface hat
      obtain ⟨session, hsession, hinterface⟩ := Option.bind_eq_some_iff.mp hat
      obtain rfl := List.mem_singleton.mp (List.mem_of_getElem? hsession)
      obtain rfl := Option.some.inj hinterface
      exact ⟨rfl, Nat.succ_pos 9, Nat.succ_pos 9⟩
    rcases linkedThreads_cases hself with ⟨-, rfl⟩ | ⟨-, rfl⟩
    · exact htidy _ _ _ _
    · exact htidy _ _ _ _

/-- The two threads of the announcing run are two speakers, and both hear something. -/
theorem refines_run_linked :
    ∃ state' history acts net',
      ProcessThreads.run .sample linkedThreads (announcingEvents "10.0.0.2") =
        .ok (state', history) ∧
      QueueNets.run (speakerNodes .sample linkedWiring) (startNet linkedWiring linkedThreads) acts =
        .ok (net', history.filterMap noted) ∧ Abstracts linkedWiring state' net' := by
  obtain ⟨state', history, hrun, hsealed⟩ : ∃ state' history,
      ProcessThreads.run .sample linkedThreads (announcingEvents "10.0.0.2") =
        .ok (state', history) ∧
      ∀ entry ∈ history, Sealed linkedWiring entry := ⟨_, _, rfl, by decide⟩
  obtain ⟨acts, net', hacts, hend, -⟩ := refines_run .sample linkedWiring linkedThreads
    (startNet linkedWiring linkedThreads) initial_linked.abstracts wired_linked _ state' history
    hrun hsealed
  exact ⟨state', history, acts, net', hrun, hacts, hend⟩

end Sample

end NetfabricBgp.NetRuns
