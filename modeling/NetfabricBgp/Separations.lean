import NetfabricBgp.Flows

/-!
Regions of a network that have nothing in common. If the threads of a region use only its own
channels and RIBs, and no other thread uses one of them, then what happens in the region is what
would happen there alone: the other threads can neither change it nor be noticed in it.
-/
namespace NetfabricBgp.Separations

open Addresses RouterMasks Ribs RibInterfaces Advertisements Channels Interfaces Sessions
  Processes Supplies LinkThreads Routers ProcessThreads ThreadSteps ThreadHistories Speakers Flows

/-- Some of the threads, channels and RIBs of a network. -/
structure Region (ι : Type*) where
  threads : ι → Bool
  channels : ChannelId → Bool
  ribs : RibId → Bool

/-- Every thread uses channels and a RIB of the region, or every thread outside of others. -/
structure Separate {ι : Type*} (region : Region ι) (settings : ι → Option Setting) : Prop where
  rib : ∀ i setting, settings i = some setting → region.ribs setting.rib = region.threads i
  channel : ∀ i setting port c, settings i = some setting → some port ∈ setting.ports →
    port.inChannel = some c ∨ port.outChannel = some c → region.channels c = region.threads i

namespace Region
variable {ι : Type*} (region : Region ι)

def hasEvent : Event ι → Bool
  | .act i _ => region.threads i
  | .arrive c _ => region.channels c
  | .leave c => region.channels c

def hasEntry : Option ι × Effect → Bool
  | (some i, _) => region.threads i
  | (none, .take c _) => region.channels c
  | (none, .put c _) => region.channels c
  | (none, .refuse c _) => region.channels c
  | _ => false

end Region

/-- The same in the region. -/
structure Agrees {ι : Type*} (region : Region ι) (state other : Threads ι) : Prop where
  thread : ∀ i, region.threads i = true → other.thread i = state.thread i
  link : ∀ c, region.channels c = true → other.shared.links c = state.shared.links c
  rib : ∀ rib, region.ribs rib = true → other.shared.ribs rib = state.shared.ribs rib

section Steps
variable {forms : TextForms} {instant : Instant} {shared shared' other other' : Shared}
  {self self' : Thread} {n : ℕ}

theorem receiveRound_congr {interface : Interface} {links links' : Links}
    (h : ∀ c, interface.inChannel = some c → links' c = links c) :
    (self.receiveRound n interface links').2 = (self.receiveRound n interface links).2 := by
  unfold Thread.receiveRound
  cases hin : interface.inChannel with
  | none => rfl
  | some c =>
    simp only [h c hin]
    cases (links c).queue.items <;> rfl

theorem sendRound_congr {interface : Interface} {links links' : Links} {ad : Advertisement}
    {rest : List Advertisement} (h : ∀ c, interface.outChannel = some c → links' c = links c) :
    (self.sendRound n interface links' ad rest).2 =
      (self.sendRound n interface links ad rest).2 := by
  unfold Thread.sendRound
  by_cases hkeep : (interface.outFilter ad).1 = true
  · simp only [hkeep, if_true]
    cases hout : interface.outChannel with
    | none => rfl
    | some c =>
      simp only [h c hout]
      cases (links c).trySend (.advertisement (interface.outFilter ad).2) <;> rfl
  · simp only [hkeep, Bool.false_eq_true, if_false]

/-- A step of a thread depends on nothing but its own channels and its RIB. -/
theorem step_congr {effect : Option Effect}
    (hlinks : ∀ n interface c, self.interfaceAt n = some interface →
      interface.inChannel = some c ∨ interface.outChannel = some c →
        other.links c = shared.links c)
    (hrib : other.ribs self.rib = shared.ribs self.rib)
    (h : self.step forms instant shared = .ok ((shared', self'), effect)) :
    ∃ other', self.step forms instant other = .ok ((other', self'), effect) := by
  unfold Thread.step at h ⊢
  cases hstage : self.stage with
  | receiving n =>
    simp only [hstage] at h ⊢
    cases hat : self.interfaceAt n with
    | none =>
      simp only [hat, Except.ok.injEq, Prod.mk.injEq] at h
      obtain ⟨⟨-, rfl⟩, rfl⟩ := h
      exact ⟨_, rfl⟩
    | some interface =>
      have hround := @receiveRound_congr self n interface shared.links other.links
        (fun c hin => hlinks n interface c hat (Or.inl hin))
      rcases hold : self.receiveRound n interface shared.links with ⟨links, next, done⟩
      rcases hnew : self.receiveRound n interface other.links with ⟨links', next', done'⟩
      rw [hold, hnew] at hround
      obtain ⟨rfl, rfl⟩ := Prod.mk.inj hround
      simp only [hat, hold, Except.ok.injEq, Prod.mk.injEq] at h
      obtain ⟨⟨-, rfl⟩, rfl⟩ := h
      simp only [hnew]
      exact ⟨_, rfl⟩
  | update ads =>
    cases ads with
    | nil =>
      simp only [hstage, Except.ok.injEq, Prod.mk.injEq] at h
      obtain ⟨⟨-, rfl⟩, rfl⟩ := h
      exact ⟨_, rfl⟩
    | cons ad rest =>
      cases hlock : instant.lock with
      | timedOut =>
        simp only [hstage, hlock, Except.ok.injEq, Prod.mk.injEq] at h
        obtain ⟨⟨-, rfl⟩, rfl⟩ := h
        exact ⟨_, rfl⟩
      | acquired =>
        simp only [hstage, hlock, Thread.applyUpdate, hrib] at h ⊢
        rcases hupdate : self.process.ribInterface.updateLocked forms (shared.ribs self.rib) ad
          with panic | ⟨rib, ribInterface⟩
        · simp [hupdate] at h
        · simp only [hupdate, Except.ok.injEq, Prod.mk.injEq] at h
          obtain ⟨⟨-, rfl⟩, rfl⟩ := h
          exact ⟨_, rfl⟩
  | sending n ads =>
    cases ads with
    | nil =>
      simp only [hstage, Except.ok.injEq, Prod.mk.injEq] at h
      obtain ⟨⟨-, rfl⟩, rfl⟩ := h
      exact ⟨_, rfl⟩
    | cons ad rest =>
      simp only [hstage] at h ⊢
      cases hat : self.interfaceAt n with
      | none =>
        simp only [hat, Except.ok.injEq, Prod.mk.injEq] at h
        obtain ⟨⟨-, rfl⟩, rfl⟩ := h
        exact ⟨_, rfl⟩
      | some interface =>
        have hround := @sendRound_congr self n interface shared.links other.links ad rest
          (fun c hout => hlinks n interface c hat (Or.inr hout))
        rcases hold : self.sendRound n interface shared.links ad rest with ⟨links, next, done⟩
        rcases hnew : self.sendRound n interface other.links ad rest with ⟨links', next', done'⟩
        rw [hold, hnew] at hround
        obtain ⟨rfl, rfl⟩ := Prod.mk.inj hround
        simp only [hat, hold, Except.ok.injEq, Prod.mk.injEq] at h
        obtain ⟨⟨-, rfl⟩, rfl⟩ := h
        simp only [hnew]
        exact ⟨_, rfl⟩
  | _ =>
    simp only [hstage, Except.ok.injEq, Prod.mk.injEq] at h
    obtain ⟨⟨-, rfl⟩, rfl⟩ := h
    exact ⟨_, rfl⟩

/-- The channel of an effect. -/
def channelOf : Effect → Option ChannelId
  | .take c _ => some c
  | .discard c _ => some c
  | .put c _ => some c
  | .refuse c _ => some c
  | _ => none

theorem link_of_changes {effect : Effect} {c : ChannelId} (h : Changes forms effect shared shared')
    (hne : channelOf effect ≠ some c) : shared'.links c = shared.links c := by
  cases effect with
  | take id message =>
    obtain ⟨-, rfl⟩ := h
    exact Function.update_of_ne (fun heq => hne (congrArg some heq.symm)) _ _
  | discard id message =>
    obtain ⟨-, rfl⟩ := h
    exact Function.update_of_ne (fun heq => hne (congrArg some heq.symm)) _ _
  | put id message =>
    obtain ⟨channel, -, rfl⟩ := h
    exact Function.update_of_ne (fun heq => hne (congrArg some heq.symm)) _ _
  | refuse id message =>
    obtain ⟨-, rfl⟩ := h
    rfl
  | apply rib client ad =>
    obtain ⟨rib', -, rfl⟩ := h
    rfl
  | skip ad =>
    obtain rfl : shared' = shared := h
    rfl
  | publish ad =>
    obtain rfl : shared' = shared := h
    rfl

/-- The same effect leaves the same on a channel that was the same before. -/
theorem link_congr {effect : Effect} {c : ChannelId} (h : Changes forms effect shared shared')
    (hother : Changes forms effect other other') (hsame : other.links c = shared.links c) :
    other'.links c = shared'.links c := by
  by_cases hne : channelOf effect = some c
  · cases effect with
    | take id message =>
      obtain rfl := Option.some.inj hne
      obtain ⟨-, rfl⟩ := h
      obtain ⟨-, rfl⟩ := hother
      simp only [Shared.pop, Function.update_self, hsame]
    | discard id message =>
      obtain rfl := Option.some.inj hne
      obtain ⟨-, rfl⟩ := h
      obtain ⟨-, rfl⟩ := hother
      simp only [Shared.pop, Function.update_self, hsame]
    | put id message =>
      obtain rfl := Option.some.inj hne
      obtain ⟨channel, hsend, rfl⟩ := h
      obtain ⟨channel', hsend', rfl⟩ := hother
      rw [hsame, hsend] at hsend'
      obtain rfl := Except.ok.inj hsend'
      simp only [Shared.setLink, Function.update_self]
    | refuse id message =>
      obtain ⟨-, rfl⟩ := h
      obtain ⟨-, rfl⟩ := hother
      exact hsame
    | _ => cases hne
  · rw [link_of_changes h hne, link_of_changes hother hne, hsame]

theorem rib_congr {effect : Effect} {rib : RibId} (h : Changes forms effect shared shared')
    (hother : Changes forms effect other other') (hsame : other.ribs rib = shared.ribs rib) :
    other'.ribs rib = shared'.ribs rib := by
  have hrun := changes_rib h rib
  have hrun' := changes_rib hother rib
  rw [hsame, hrun] at hrun'
  exact (Except.ok.inj hrun').symm

/-- A thread has effects on its own channels only. -/
theorem channel_of_steps {effect : Effect} {c : ChannelId}
    (h : Steps forms instant shared self shared' self' (some effect))
    (hc : channelOf effect = some c) :
    ∃ n interface, self.interfaceAt n = some interface ∧
      (interface.inChannel = some c ∨ interface.outChannel = some c) := by
  cases h with
  | take n interface interface' id message rest hstage hat hin =>
    obtain rfl := Option.some.inj hc
    exact ⟨n, interface, hat, Or.inl hin⟩
  | discardForeign n interface id message rest hstage hat hin =>
    obtain rfl := Option.some.inj hc
    exact ⟨n, interface, hat, Or.inl hin⟩
  | discardFull n interface id ad rest hstage hat hin =>
    obtain rfl := Option.some.inj hc
    exact ⟨n, interface, hat, Or.inl hin⟩
  | put n interface ad rest id channel hstage hat hout =>
    obtain rfl := Option.some.inj hc
    exact ⟨n, interface, hat, Or.inr hout⟩
  | refuse n interface ad rest id e hstage hat hout =>
    obtain rfl := Option.some.inj hc
    exact ⟨n, interface, hat, Or.inr hout⟩
  | _ => cases hc

end Steps

section Networks
variable {forms : TextForms} {ι : Type*} [DecidableEq ι] {region : Region ι}
  {state state' alone alone' : Threads ι} {event : Event ι}
  {output : Option (Option ι × Effect)}

/-- Nothing that happens elsewhere changes the region. -/
theorem moves_elsewhere (hseparate : Separate region (settings state))
    (h : Moves forms state event state' output) (hevent : region.hasEvent event = false) :
    Agrees region state' state ∧ output.toList.filter region.hasEntry = [] := by
  cases h with
  | absent i instant hthread =>
    exact ⟨⟨fun _ _ => rfl, fun _ _ => rfl, fun _ _ => rfl⟩, rfl⟩
  | leaveNothing c hqueue => exact ⟨⟨fun _ _ => rfl, fun _ _ => rfl, fun _ _ => rfl⟩, rfl⟩
  | arriveFull c message e hsend =>
    have hc : region.channels c = false := hevent
    exact ⟨⟨fun _ _ => rfl, fun _ _ => rfl, fun _ _ => rfl⟩, by simp [Region.hasEntry, hc]⟩
  | arrive c message channel hsend =>
    have hc : region.channels c = false := hevent
    refine ⟨⟨fun _ _ => rfl, ?_, fun _ _ => rfl⟩, by simp [Region.hasEntry, hc]⟩
    intro other hother
    have hne : other ≠ c := by
      rintro rfl
      simp [hc] at hother
    exact (Function.update_of_ne hne _ _).symm
  | leave c message rest hqueue =>
    have hc : region.channels c = false := hevent
    refine ⟨⟨fun _ _ => rfl, ?_, fun _ _ => rfl⟩, by simp [Region.hasEntry, hc]⟩
    intro other hother
    have hne : other ≠ c := by
      rintro rfl
      simp [hc] at hother
    exact (Function.update_of_ne hne _ _).symm
  | act i instant self self' shared effect hthread hsteps =>
    have hi : region.threads i = false := hevent
    have hthreads : ∀ j, region.threads j = true →
        state.thread j = (Threads.setThread state i self' shared).thread j := by
      intro j hj
      have hne : j ≠ i := by
        rintro rfl
        simp [hi] at hj
      exact (setThread_of_ne state hne self' shared).symm
    cases effect with
    | none =>
      obtain rfl := shared_of_steps hsteps
      exact ⟨⟨hthreads, fun _ _ => rfl, fun _ _ => rfl⟩, rfl⟩
    | some effect =>
      have hchanges := changes_of_steps hsteps
      refine ⟨⟨hthreads, ?_, ?_⟩, by simp [Region.hasEntry, hi]⟩
      · intro c hc
        refine (link_of_changes hchanges ?_).symm
        intro hused
        obtain ⟨n, interface, hat, huses⟩ := channel_of_steps hsteps hused
        have hsame := hseparate.channel i _ (portOf interface) c (setting_of_thread hthread)
          (port_mem hat) huses
        rw [hc, hi] at hsame
        cases hsame
      · intro rib hrib
        refine (ribs_of_changes hchanges rib ?_).symm
        intro client ad heffect
        subst heffect
        have hself : rib = self.rib := by cases hsteps; rfl
        have hsame := hseparate.rib i _ (setting_of_thread hthread)
        rw [show (settingOf self).rib = rib from hself.symm, hrib, hi] at hsame
        cases hsame

/-- The same effect leaves the region the same. -/
theorem agrees_changes {effect : Effect} {i : ι} {self : Thread} {shared shared' : Shared}
    (h : Agrees region state alone) (hchanges : Changes forms effect state.shared shared)
    (hother : Changes forms effect alone.shared shared') :
    Agrees region (Threads.setThread state i self shared)
      (Threads.setThread alone i self shared') := by
  refine ⟨?_, fun c hc => link_congr hchanges hother (h.link c hc),
    fun rib hrib => rib_congr hchanges hother (h.rib rib hrib)⟩
  intro j hj
  by_cases hij : j = i
  · subst hij
    rw [setThread_self, setThread_self]
  · rw [setThread_of_ne alone hij, setThread_of_ne state hij]
    exact h.thread j hj

/-- What happens in the region happens there in the same way alone. -/
theorem step_alone (hseparate : Separate region (settings state))
    (hagrees : Agrees region state alone)
    (h : step forms state event = .ok (state', output)) (hevent : region.hasEvent event = true) :
    ∃ alone', step forms alone event = .ok (alone', output) ∧ Agrees region state' alone' ∧
      ∀ entry ∈ output, region.hasEntry entry = true := by
  cases event with
  | act i instant =>
    have hi : region.threads i = true := hevent
    have hsame := hagrees.thread i hi
    simp only [step] at h ⊢
    rw [hsame]
    cases hthread : state.thread i with
    | none =>
      simp only [hthread, Except.ok.injEq, Prod.mk.injEq] at h
      obtain ⟨rfl, rfl⟩ := h
      exact ⟨alone, rfl, hagrees, fun entry hentry => by cases hentry⟩
    | some self =>
      rcases hstep : self.step forms instant state.shared with panic | ⟨⟨shared, self'⟩, effect⟩
      · simp [hthread, hstep] at h
      simp only [hthread, hstep, Except.ok.injEq, Prod.mk.injEq] at h
      obtain ⟨rfl, rfl⟩ := h
      have hsetting := setting_of_thread hthread
      have hlinks : ∀ n interface c, self.interfaceAt n = some interface →
          interface.inChannel = some c ∨ interface.outChannel = some c →
            alone.shared.links c = state.shared.links c := by
        intro n interface c hat huses
        apply hagrees.link
        rw [hseparate.channel i _ (portOf interface) c hsetting (port_mem hat) huses]
        exact hi
      have hrib : alone.shared.ribs self.rib = state.shared.ribs self.rib := by
        apply hagrees.rib
        rw [show self.rib = (settingOf self).rib from rfl, hseparate.rib i _ hsetting]
        exact hi
      obtain ⟨shared', hother⟩ := step_congr hlinks hrib hstep
      simp only [hother]
      refine ⟨_, rfl, ?_, ?_⟩
      · cases effect with
        | none =>
          obtain rfl := shared_of_steps (steps_of_step hstep)
          obtain rfl := shared_of_steps (steps_of_step hother)
          exact @agrees_changes forms ι _ region state alone (.skip .new) i self' _ _ hagrees rfl
            rfl
        | some effect =>
          exact agrees_changes hagrees (changes_of_steps (steps_of_step hstep))
            (changes_of_steps (steps_of_step hother))
      · intro entry hentry
        obtain ⟨done, -, rfl⟩ := Option.map_eq_some_iff.mp hentry
        exact hi
  | arrive c message =>
    have hc : region.channels c = true := hevent
    have hsame := hagrees.link c hc
    simp only [step] at h ⊢
    rw [hsame]
    rcases hsend : (state.shared.links c).trySend message with e | channel
    · simp only [hsend, Except.ok.injEq, Prod.mk.injEq] at h
      obtain ⟨rfl, rfl⟩ := h
      exact ⟨alone, rfl, hagrees, fun entry hentry => Option.some.inj hentry ▸ hc⟩
    · simp only [hsend, Except.ok.injEq, Prod.mk.injEq] at h
      obtain ⟨rfl, rfl⟩ := h
      have hchanges : Changes forms (.put c message) state.shared
          (Shared.setLink state.shared c channel) := ⟨channel, hsend, rfl⟩
      have hother : Changes forms (.put c message) alone.shared
          (Shared.setLink alone.shared c channel) := ⟨channel, hsame.symm ▸ hsend, rfl⟩
      exact ⟨_, rfl, ⟨hagrees.thread, fun d hd => link_congr hchanges hother (hagrees.link d hd),
        hagrees.rib⟩, fun entry hentry => Option.some.inj hentry ▸ hc⟩
  | leave c =>
    have hc : region.channels c = true := hevent
    have hsame := hagrees.link c hc
    simp only [step] at h ⊢
    rw [hsame]
    cases hqueue : (state.shared.links c).queue.items with
    | nil =>
      simp only [hqueue, Except.ok.injEq, Prod.mk.injEq] at h
      obtain ⟨rfl, rfl⟩ := h
      exact ⟨alone, rfl, hagrees, fun entry hentry => by cases hentry⟩
    | cons message rest =>
      simp only [hqueue, Except.ok.injEq, Prod.mk.injEq] at h
      obtain ⟨rfl, rfl⟩ := h
      have hchanges : Changes forms (.take c message) state.shared
          (Shared.pop state.shared c) := ⟨⟨rest, hqueue⟩, rfl⟩
      have hother : Changes forms (.take c message) alone.shared
          (Shared.pop alone.shared c) := ⟨⟨rest, hsame.symm ▸ hqueue⟩, rfl⟩
      refine ⟨_, rfl, ⟨hagrees.thread, ?_, hagrees.rib⟩,
        fun entry hentry => Option.some.inj hentry ▸ hc⟩
      intro d hd
      have hlink := link_congr hchanges hother (hagrees.link d hd)
      simpa only [Shared.pop, hsame] using hlink

/-- In a region of a network that has nothing in common with the rest, every run of the network
does what the events of the region do there alone, whatever else is around it. -/
theorem run_region {events : List (Event ι)} {history : List (Option ι × Effect)}
    (hseparate : Separate region (settings state)) (hagrees : Agrees region state alone)
    (hrun : run forms state events = .ok (state', history)) :
    ∃ alone', run forms alone (events.filter region.hasEvent) =
        .ok (alone', history.filter region.hasEntry) ∧ Agrees region state' alone' := by
  induction events generalizing state alone history with
  | nil =>
    obtain ⟨rfl, rfl⟩ := Prod.mk.inj (Except.ok.inj hrun)
    exact ⟨alone, rfl, hagrees⟩
  | cons event rest ih =>
    obtain ⟨next, output, later, hstep, hrest, rfl⟩ := Runs.collect_cons_ok.mp hrun
    have hmoves := moves_of_step hstep
    have hnext : Separate region (settings next) := by
      rw [settings_moves hmoves]
      exact hseparate
    rw [List.filter_append]
    cases hevent : region.hasEvent event with
    | false =>
      obtain ⟨hsame, hnone⟩ := moves_elsewhere hseparate hmoves hevent
      have hagrees' : Agrees region next alone :=
        ⟨fun i hi => (hagrees.thread i hi).trans (hsame.thread i hi),
          fun c hc => (hagrees.link c hc).trans (hsame.link c hc),
          fun rib hrib => (hagrees.rib rib hrib).trans (hsame.rib rib hrib)⟩
      obtain ⟨alone', hrun', hend⟩ := ih hnext hagrees' hrest
      rw [hnone, List.nil_append, List.filter_cons_of_neg (by simp [hevent])]
      exact ⟨alone', hrun', hend⟩
    | true =>
      obtain ⟨middle, hmiddle, hagrees', hentries⟩ := step_alone hseparate hagrees hstep hevent
      obtain ⟨alone', hrun', hend⟩ := ih hnext hagrees' hrest
      have hall : output.toList.filter region.hasEntry = output.toList :=
        List.filter_eq_self.mpr (fun entry hentry => hentries entry (Option.mem_toList.mp hentry))
      rw [hall, List.filter_cons_of_pos hevent]
      exact ⟨alone', Runs.collect_cons_ok.mpr ⟨middle, output, _, hmiddle, hrun', rfl⟩, hend⟩

end Networks

end NetfabricBgp.Separations
