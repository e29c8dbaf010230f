import NetfabricBgp.Spreads

/-!
How a prefix spreads through a network. On every link, whoever knows the prefix at the start of
a cycle has told it: the neighbour knows it as well, or an announcement waits for it. So a whole
cycle of each thread along a path, one after the other, takes the prefix from the first to the
last, whatever else happens meanwhile, as long as nothing is lost and nobody withdraws it.
-/
namespace NetfabricBgp.SpreadRuns

open Addresses Routes RouterMasks Ribs RibInterfaces Advertisements KeyedLog BoundedQueues Channels
  Interfaces Sessions Processes Supplies LinkThreads ClientTables ProcessThreads ThreadSteps
  ThreadHistories Speakers Flows Spreads

/-- An event that takes every lock it tries to take. -/
def Unhindered {ι : Type*} : Event ι → Prop
  | .act _ instant => instant.lock = .acquired
  | _ => True

instance {ι : Type*} (event : Event ι) : Decidable (Unhindered event) :=
  match event with
  | .act _ instant => inferInstanceAs (Decidable (instant.lock = .acquired))
  | .arrive _ _ => .isTrue trivial
  | .leave _ => .isTrue trivial

/-- Nothing is lost by the effect, nothing taken away, and nothing withdrawn at the prefix. -/
def Lossless {ι : Type*} (forms : TextForms) (network : IpNetwork) : Option ι × Effect → Prop
  | (some _, effect) => Harmless forms network effect
  | (none, .take _ _) => False
  | (none, .discard _ _) => False
  | (none, _) => True

instance {ι : Type*} (forms : TextForms) (network : IpNetwork) (entry : Option ι × Effect) :
    Decidable (Lossless forms network entry) :=
  match entry with
  | (some _, effect) => inferInstanceAs (Decidable (Harmless forms network effect))
  | (none, .take _ _) => .isFalse not_false
  | (none, .discard _ _) => .isFalse not_false
  | (none, .skip _) => .isTrue trivial
  | (none, .apply _ _ _) => .isTrue trivial
  | (none, .publish _) => .isTrue trivial
  | (none, .put _ _) => .isTrue trivial
  | (none, .refuse _ _) => .isTrue trivial

/-- A run in which no lock is missed, nothing is lost, and the prefix is not withdrawn. -/
structure Undisturbed {ι : Type*} (forms : TextForms) (network : IpNetwork)
    (events : List (Event ι)) (history : List (Option ι × Effect)) : Prop where
  events : ∀ event ∈ events, Unhindered event
  effects : ∀ entry ∈ history, Lossless forms network entry

/-- One channel from a session of a thread to a session of another, which alone reads it. -/
structure Linked {ι : Type*} (forms : TextForms) (network : IpNetwork)
    (settings : ι → Option Setting) (i j : ι) (m n : ℕ) (c : ChannelId) : Prop where
  ne : i ≠ j
  writes : ∃ setting port, settings i = some setting ∧ setting.ports[m]?.join = some port ∧
    port.outChannel = some c ∧ ∀ ad, Announces forms network ad → port.outFilter ad = (true, ad)
  reads : ∃ setting port, settings j = some setting ∧ setting.ports[n]?.join = some port ∧
    port.inChannel = some c ∧ ∀ ad, Announces forms network ad → port.inFilter ad = (true, ad)
  only : ∀ k setting q port, settings k = some setting → setting.ports[q]?.join = some port →
    port.inChannel = some c → k = j ∧ q = n

/-- The thread is a speaker with a RIB of its own. -/
structure Role {ι : Type*} (state : Threads ι) (i : ι) (thread : Thread) (speaker : Speaker) :
    Prop where
  present : state.thread i = some thread
  speaks : Speaks state.shared thread speaker
  own : ∀ k other, state.thread k = some other → other.rib = thread.rib → k = i

section Links
variable {forms : TextForms} {network : IpNetwork} {ι : Type*} {state : Threads ι} {i j : ι}
  {m n : ℕ} {c : ChannelId} {self : Thread}

theorem writesAt_of_linked (h : Linked forms network (settings state) i j m n c)
    (hself : state.thread i = some self) : WritesAt forms network self m c := by
  obtain ⟨setting, port, hsetting, hport, hout, hpass⟩ := h.writes
  obtain rfl := Option.some.inj ((setting_of_thread hself).symm.trans hsetting)
  rw [portAt_eq] at hport
  obtain ⟨interface, hat, rfl⟩ := Option.map_eq_some_iff.mp hport
  exact ⟨interface, hat, hout, hpass⟩

theorem readsAt_of_linked (h : Linked forms network (settings state) i j m n c)
    (hself : state.thread j = some self) : ReadsAt forms network self n c := by
  obtain ⟨setting, port, hsetting, hport, hin, hpass⟩ := h.reads
  obtain rfl := Option.some.inj ((setting_of_thread hself).symm.trans hsetting)
  rw [portAt_eq] at hport
  obtain ⟨interface, hat, rfl⟩ := Option.map_eq_some_iff.mp hport
  refine ⟨⟨interface, hat, hin, hpass⟩, ?_⟩
  intro k other hother hotherIn
  refine (h.only j _ k (portOf other) hsetting ?_ hotherIn).2
  rw [portAt_eq, hother]
  rfl

end Links

theorem harmless_of_lossless {forms : TextForms} {network : IpNetwork} {ι : Type*} {i : ι}
    {effect : Option Effect}
    (h : ∀ entry ∈ effect.map (some i, ·), Lossless forms network entry) :
    ∀ done ∈ effect, Harmless forms network done :=
  fun done hdone => h (some i, done) (Option.mem_map_of_mem _ hdone)

/-- What a thread takes comes from a channel of its own. -/
theorem taken_of_steps {forms : TextForms} {instant : Instant} {shared shared' : Shared}
    {self self' : Thread} {c : ChannelId} {message : Message}
    (h : Steps forms instant shared self shared' self' (some (.take c message))) :
    ∃ n interface, self.interfaceAt n = some interface ∧ interface.inChannel = some c := by
  cases h with
  | take n interface interface' id message rest hstage hat hin => exact ⟨n, interface, hat, hin⟩

theorem stage_of_publish {forms : TextForms} {instant : Instant} {shared shared' : Shared}
    {self self' : Thread} {ad : Advertisement}
    (h : Steps forms instant shared self shared' self' (some (.publish ad))) :
    self.stage = .publish := by
  cases h with
  | publish hstage => exact hstage

section Moving
variable {forms : TextForms} {network : IpNetwork} {ι : Type*} [DecidableEq ι]
  {state state' : Threads ι} {event : Event ι} {output : Option (Option ι × Effect)} {i j : ι}
  {m n : ℕ} {c : ChannelId} {self : Thread} {speaker : Speaker}

/-- A RIB is changed by its own threads only. -/
theorem rib_of_moves {rib : RibId} (h : Moves forms state event state' output)
    (hnone : ∀ k other instant, state.thread k = some other → other.rib = rib →
      event ≠ .act k instant) : state'.shared.ribs rib = state.shared.ribs rib := by
  cases output with
  | none => rw [shared_of_moves h]
  | some entry =>
    obtain ⟨actor, effect⟩ := entry
    refine ribs_of_changes (changes_of_moves h) rib ?_
    intro client ad heffect
    subst heffect
    obtain ⟨k, other, rest, rfl, hother, hrib, -⟩ := apply_of_moves h
    obtain ⟨instant, -, -, hevent, -⟩ := act_of_moves h
    exact hnone k other instant hother hrib hevent

theorem thread_of_moves (h : Moves forms state event state' output)
    (hne : ∀ instant, event ≠ .act i instant) : state'.thread i = state.thread i := by
  cases h with
  | act k instant self self' shared effect hthread hsteps =>
    refine setThread_of_ne state ?_ self' shared
    rintro rfl
    exact hne instant rfl
  | _ => rfl

theorem own_of_moves (h : Role state i self speaker)
    (hmoves : Moves forms state event state' output) (k : ι) (other : Thread)
    (hother : state'.thread k = some other) (hrib : other.rib = self.rib) : k = i := by
  have hsetting := hmoves.setting k
  rw [hother, Option.map_some] at hsetting
  obtain ⟨old, hold, hsame⟩ := Option.map_eq_some_iff.mp hsetting.symm
  exact h.own k old hold ((congrArg Setting.rib hsame).trans hrib)

/-- Others' events change nothing for a speaker. -/
theorem Role.moves_other (h : Role state i self speaker)
    (hmoves : Moves forms state event state' output) (hne : ∀ instant, event ≠ .act i instant) :
    Role state' i self speaker := by
  have hrib : state'.shared.ribs self.rib = state.shared.ribs self.rib := by
    refine rib_of_moves hmoves ?_
    intro k other instant hother hsame hevent
    rw [h.own k other hother hsame] at hevent
    exact hne instant hevent
  refine ⟨(thread_of_moves hmoves hne).trans h.present, ⟨?_, h.speaks.pending⟩,
    own_of_moves h hmoves⟩
  rw [hrib]
  exact h.speaks.table

/-- Its own events are steps of the speaker. -/
theorem Role.moves_act {instant : Instant} (h : Role state i self speaker)
    (hmoves : Moves forms state (.act i instant) state' output) :
    ∃ self' effect, Steps forms instant state.shared self state'.shared self' effect ∧
      output = effect.map (some i, ·) ∧ Role state' i self' (heard forms speaker effect) := by
  have hown := own_of_moves h hmoves
  obtain ⟨self', effect, hsteps, hstate, houtput⟩ := act_cases h.present hmoves
  have hpresent : state'.thread i = some self' := by
    rw [hstate]
    exact setThread_self state i self' _
  refine ⟨self', effect, hsteps, houtput, hpresent, ?_, ?_⟩
  · cases effect with
    | none => exact h.speaks.steps_none hsteps
    | some done => exact (h.speaks.steps hsteps).1
  · intro k other hother hrib
    exact hown k other hother (hrib.trans (congrArg Setting.rib hsteps.settingOf_eq))

/-- What is on a link stays there until its reader acts. -/
theorem queue_of_moves (h : Linked forms network (settings state) i j m n c)
    (hmoves : Moves forms state event state' output)
    (hlossless : ∀ entry ∈ output, Lossless forms network entry)
    (hne : ∀ instant, event ≠ .act j instant) {message : Message}
    (hmem : message ∈ (state.shared.links c).queue.items) :
    message ∈ (state'.shared.links c).queue.items := by
  cases output with
  | none =>
    rw [shared_of_moves hmoves]
    exact hmem
  | some entry =>
    obtain ⟨actor, effect⟩ := entry
    have hqueue := changes_queue (changes_of_moves hmoves) c
    have hnone : takenFrom c effect = [] := by
      cases actor with
      | none =>
        have hout := hlossless _ rfl
        cases effect with
        | take id message => exact hout.elim
        | discard id message => exact hout.elim
        | _ => rfl
      | some k =>
        have hharmless : Harmless forms network effect := hlossless _ rfl
        obtain ⟨instant, self, self', hevent, hself, hsteps⟩ := act_of_moves hmoves
        cases effect with
        | discard id message => exact hharmless.elim
        | take id message =>
          by_cases hid : id = c
          · subst hid
            obtain ⟨q, interface, hat, hin⟩ := taken_of_steps hsteps
            have hport : (settingOf self).ports[q]?.join = some (portOf interface) := by
              rw [portAt_eq, hat]
              rfl
            obtain ⟨rfl, -⟩ := h.only k _ q _ (setting_of_thread hself) hport hin
            exact absurd hevent (hne instant)
          · simp [takenFrom, hid]
        | _ => rfl
    rw [hnone, List.nil_append] at hqueue
    rw [← hqueue]
    exact List.mem_append_left _ hmem

end Moving

/-- What the source of a link knows, the target knows as well, or it is on its way there. -/
structure Between {ι : Type*} (forms : TextForms) (network : IpNetwork) (state : Threads ι)
    (i j : ι) (m n : ℕ) (c : ChannelId) (source target : Thread) (speaker speaker' : Speaker) :
    Prop where
  sourceRole : Role state i source speaker
  targetRole : Role state j target speaker'
  tidy : Tidy source
  reaches : Knows network speaker → Untold network source speaker ∨
    Unsent forms network source m ∨ Taken forms network target speaker' ∨
      Waiting forms network state.shared target n c

/-- The prefix has reached the target, or waits for it. -/
structure Reached {ι : Type*} (forms : TextForms) (network : IpNetwork) (state : Threads ι) (j : ι)
    (n : ℕ) (c : ChannelId) (target : Thread) (speaker : Speaker) : Prop where
  role : Role state j target speaker
  reaches : Taken forms network target speaker ∨ Waiting forms network state.shared target n c

/-- The prefix will be known before the target publishes. -/
structure Due {ι : Type*} (forms : TextForms) (network : IpNetwork) (state : Threads ι) (j : ι)
    (n : ℕ) (c : ChannelId) (target : Thread) (speaker : Speaker) : Prop where
  role : Role state j target speaker
  reaches : Taken forms network target speaker ∨
    (Ahead n target.stage ∧ Waiting forms network state.shared target n c)

section Spreading
variable {forms : TextForms} {network : IpNetwork} {ι : Type*} [DecidableEq ι]
  {state state' : Threads ι} {event : Event ι} {output : Option (Option ι × Effect)} {i j : ι}
  {m n : ℕ} {c : ChannelId} {source target : Thread} {speaker speaker' : Speaker}

theorem waiting_of_moves (hlinked : Linked forms network (settings state) i j m n c)
    (hmoves : Moves forms state event state' output)
    (hlossless : ∀ entry ∈ output, Lossless forms network entry)
    (hne : ∀ instant, event ≠ .act j instant)
    (h : Waiting forms network state.shared target n c) :
    Waiting forms network state'.shared target n c := by
  rcases h with ⟨ad, hmem, hannounces⟩ | htold
  · exact Or.inl ⟨ad, queue_of_moves hlinked hmoves hlossless hne hmem, hannounces⟩
  · exact Or.inr htold

/-- Nothing that waits for the target is missed, whatever event comes next. -/
theorem target_moves (htarget : Role state j target speaker)
    (hlinked : Linked forms network (settings state) i j m n c)
    (hmoves : Moves forms state event state' output) (hunhindered : Unhindered event)
    (hlossless : ∀ entry ∈ output, Lossless forms network entry) :
    ∃ target' speaker', Role state' j target' speaker' ∧
      (Taken forms network target speaker → Taken forms network target' speaker') ∧
      (Waiting forms network state.shared target n c →
        Taken forms network target' speaker' ∨
          (Waiting forms network state'.shared target' n c ∧
            (Ahead n target.stage → Ahead n target'.stage))) ∧
      (Knows network speaker → Knows network speaker') ∧
      ((∃ ad, output = some (some j, .publish ad)) → target.stage = .publish) := by
  by_cases hact : ∃ instant, event = .act j instant
  · obtain ⟨instant, rfl⟩ := hact
    have hlock : instant.lock = .acquired := hunhindered
    obtain ⟨target', effect, hsteps, rfl, htarget'⟩ := htarget.moves_act hmoves
    have hharmless := harmless_of_lossless hlossless
    refine ⟨target', heard forms speaker effect, htarget', fun h => h.steps hlock hsteps hharmless,
      fun h => h.steps (readsAt_of_linked hlinked htarget.present) hlock hsteps hharmless,
      knows_heard hharmless, ?_⟩
    intro hpublish
    obtain ⟨ad, had⟩ := hpublish
    obtain ⟨done, rfl, hdone⟩ := Option.map_eq_some_iff.mp had
    obtain rfl := (Prod.mk.inj hdone).2
    exact stage_of_publish hsteps
  · have hne : ∀ instant, event ≠ .act j instant := fun instant hevent => hact ⟨instant, hevent⟩
    refine ⟨target, speaker, htarget.moves_other hmoves hne, id,
      fun h => Or.inr ⟨waiting_of_moves hlinked hmoves hlossless hne h, id⟩, id, ?_⟩
    intro hpublish
    obtain ⟨ad, rfl⟩ := hpublish
    obtain ⟨instant, -, -, hevent, -⟩ := act_of_moves hmoves
    exact absurd hevent (hne instant)

theorem Reached.moves (h : Reached forms network state j n c target speaker)
    (hlinked : Linked forms network (settings state) i j m n c)
    (hmoves : Moves forms state event state' output) (hunhindered : Unhindered event)
    (hlossless : ∀ entry ∈ output, Lossless forms network entry) :
    ∃ target' speaker', Reached forms network state' j n c target' speaker' := by
  obtain ⟨target', speaker', hrole, htaken, hwaiting, -, -⟩ :=
    target_moves h.role hlinked hmoves hunhindered hlossless
  refine ⟨target', speaker', hrole, ?_⟩
  rcases h.reaches with h | h
  · exact Or.inl (htaken h)
  · exact (hwaiting h).imp id And.left

/-- Until the target publishes, what is due stays due; then the prefix is known. -/
theorem Due.moves (h : Due forms network state j n c target speaker)
    (hlinked : Linked forms network (settings state) i j m n c)
    (hmoves : Moves forms state event state' output) (hunhindered : Unhindered event)
    (hlossless : ∀ entry ∈ output, Lossless forms network entry) :
    ∃ target' speaker', Role state' j target' speaker' ∧ (Knows network speaker' ∨
      ((∀ ad, output ≠ some (some j, .publish ad)) ∧
        Due forms network state' j n c target' speaker')) := by
  obtain ⟨target', speaker', hrole, htaken, hwaiting, hknows, hpublish⟩ :=
    target_moves h.role hlinked hmoves hunhindered hlossless
  refine ⟨target', speaker', hrole, ?_⟩
  by_cases hpublishes : ∃ ad, output = some (some j, .publish ad)
  · have hstage := hpublish hpublishes
    left
    rcases h.reaches with h | ⟨hahead, -⟩
    · exact hknows (h.knows (by rw [hstage]; exact not_false) (by simp [hstage]))
    · rw [hstage] at hahead
      exact hahead.elim
  · right
    refine ⟨fun ad had => hpublishes ⟨ad, had⟩, hrole, ?_⟩
    rcases h.reaches with h | ⟨hahead, h⟩
    · exact Or.inl (htaken h)
    · rcases hwaiting h with h | ⟨h, hstays⟩
      · exact Or.inl h
      · exact Or.inr ⟨hstays hahead, h⟩

/-- The invariant of a link. Of two threads at its ends one acts at most, so the case is either
that the source moves on, or that the target does. -/
theorem Between.moves
    (h : Between forms network state i j m n c source target speaker speaker')
    (hlinked : Linked forms network (settings state) i j m n c)
    (hlegible : Legible forms network (settingOf source))
    (hmoves : Moves forms state event state' output) (hunhindered : Unhindered event)
    (hlossless : ∀ entry ∈ output, Lossless forms network entry) :
    ∃ source' target' heard heard',
      Between forms network state' i j m n c source' target' heard heard' := by
  by_cases hact : ∃ instant, event = .act i instant
  · obtain ⟨instant, rfl⟩ := hact
    have hne : ∀ other, Event.act i instant ≠ .act j other :=
      fun other heq => hlinked.ne (Event.act.inj heq).1
    obtain ⟨source', effect, hsteps, rfl, hsource⟩ := h.sourceRole.moves_act hmoves
    have hharmless := harmless_of_lossless hlossless
    have hwrites := writesAt_of_linked hlinked h.sourceRole.present
    refine ⟨source', target, _, speaker', hsource, h.targetRole.moves_other hmoves hne,
      h.tidy.steps hsteps, ?_⟩
    intro hknows
    rcases knows_steps hsteps hharmless hknows with hbefore | huntold
    · rcases h.reaches hbefore with huntold | hunsent | htaken | hwaiting
      · rcases huntold.steps h.sourceRole.speaks hlegible hsteps with huntold | hunsent
        · exact Or.inl huntold
        · exact Or.inr (Or.inl hunsent)
      · rcases hunsent.steps h.tidy hwrites hsteps hharmless with hunsent | hqueue
        · exact Or.inr (Or.inl hunsent)
        · exact Or.inr (Or.inr (Or.inr (Or.inl hqueue)))
      · exact Or.inr (Or.inr (Or.inl htaken))
      · exact Or.inr (Or.inr (Or.inr (waiting_of_moves hlinked hmoves hlossless hne hwaiting)))
    · exact Or.inl huntold
  · have hne : ∀ instant, event ≠ .act i instant := fun instant hevent => hact ⟨instant, hevent⟩
    obtain ⟨target', speaker'', hrole, htaken, hwaiting, -, -⟩ :=
      target_moves h.targetRole hlinked hmoves hunhindered hlossless
    refine ⟨source, target', speaker, speaker'', h.sourceRole.moves_other hmoves hne, hrole, h.tidy,
      ?_⟩
    intro hknows
    rcases h.reaches hknows with h | h | h | h
    · exact Or.inl h
    · exact Or.inr (Or.inl h)
    · exact Or.inr (Or.inr (Or.inl (htaken h)))
    · rcases hwaiting h with h | ⟨h, -⟩
      · exact Or.inr (Or.inr (Or.inl h))
      · exact Or.inr (Or.inr (Or.inr h))

end Spreading

/-- The thread is at the start of a cycle. -/
def AtStart {ι : Type*} (state : Threads ι) (i : ι) : Prop :=
  ∃ self, state.thread i = some self ∧ self.stage = .receive 0

/-- The client of the thread holds a route for the prefix. -/
def HasRoute {ι : Type*} (state : Threads ι) (i : ι) (network : IpNetwork) : Prop :=
  ∃ self, state.thread i = some self ∧
    (state.shared.ribs self.rib).held self.process.ribInterface.clientId network ≠ []

/-- What all links of a network have in common. -/
structure Spreading {ι : Type*} (forms : TextForms) (network : IpNetwork) (state : Threads ι) :
    Prop where
  legible : ∀ i setting, settings state i = some setting → Legible forms network setting
  links : ∀ i j m n c, Linked forms network (settings state) i j m n c →
    ∃ source target speaker speaker', Between forms network state i j m n c source target speaker
      speaker'

/-- Tidy processes that have no routes yet, on RIBs of their own. -/
structure Silent {ι : Type*} (state : Threads ι) : Prop where
  role : ∀ i self, state.thread i = some self → Role state i self .silent
  tidy : ∀ i self, state.thread i = some self → Tidy self

section Starting
variable {forms : TextForms} {network : IpNetwork} {ι : Type*} {state : Threads ι}
  {event : Event ι} {output : Option (Option ι × Effect)} {i j : ι} {m n : ℕ} {c : ChannelId}
  {target : Thread} {speaker : Speaker}

theorem undisturbed_cons {rest : List (Event ι)} {later : List (Option ι × Effect)}
    (h : Undisturbed forms network (event :: rest) (output.toList ++ later)) :
    Unhindered event ∧ (∀ entry ∈ output, Lossless forms network entry) ∧
      Undisturbed forms network rest later :=
  ⟨h.events event List.mem_cons_self,
    fun entry hentry => h.effects entry (List.mem_append_left _ (Option.mem_toList.mpr hentry)),
    fun other hother => h.events other (List.mem_cons_of_mem _ hother),
    fun entry hentry => h.effects entry (List.mem_append_right _ hentry)⟩

theorem hasRoute_iff (h : Role state i target speaker) :
    HasRoute state i network ↔ Knows network speaker := by
  have hheld := h.speaks.table.own network
  constructor
  · intro hroute
    obtain ⟨self, hself, hne⟩ := hroute
    obtain rfl := Option.some.inj (h.present.symm.trans hself)
    rw [hheld] at hne
    exact hne
  · intro hknows
    exact ⟨target, h.present, by rw [hheld]; exact hknows⟩

/-- At the start of a cycle everything has been told. -/
theorem Between.reached {source : Thread} {speaker' : Speaker}
    (h : Between forms network state i j m n c source target speaker speaker')
    (hstart : source.stage = .receive 0) (hknows : Knows network speaker) :
    Reached forms network state j n c target speaker' := by
  refine ⟨h.targetRole, ?_⟩
  rcases h.reaches hknows with ⟨-, hstage | ⟨rest, hstage⟩⟩ | hunsent | htaken | hwaiting
  · rw [hstart] at hstage
    cases hstage
  · rw [hstart] at hstage
    cases hstage
  · rcases hunsent with ⟨hunpushed, -⟩ | ⟨rest, hstage, -⟩
    · rw [hstart] at hunpushed
      exact hunpushed.elim
    · rw [hstart] at hstage
      cases hstage
  · exact Or.inl htaken
  · exact Or.inr hwaiting

theorem Silent.spreading (h : Silent state)
    (hlegible : ∀ i setting, settings state i = some setting → Legible forms network setting) :
    Spreading forms network state := by
  refine ⟨hlegible, ?_⟩
  intro i j m n c hlinked
  obtain ⟨setting, -, hsetting, -⟩ := hlinked.writes
  obtain ⟨setting', -, hsetting', -⟩ := hlinked.reads
  obtain ⟨source, hsource, -⟩ := Option.map_eq_some_iff.mp hsetting
  obtain ⟨target, htarget, -⟩ := Option.map_eq_some_iff.mp hsetting'
  refine ⟨source, target, .silent, .silent, h.role i source hsource, h.role j target htarget,
    h.tidy i source hsource, ?_⟩
  intro hknows
  exact absurd rfl hknows

end Starting

section Runs
variable {forms : TextForms} {network : IpNetwork} {ι : Type*} [DecidableEq ι]
  {state state' : Threads ι} {event : Event ι} {output : Option (Option ι × Effect)}
  {events : List (Event ι)} {history : List (Option ι × Effect)} {i j k : ι} {m n : ℕ}
  {c : ChannelId} {target : Thread} {speaker : Speaker}

theorem Spreading.moves (h : Spreading forms network state)
    (hmoves : Moves forms state event state' output) (hunhindered : Unhindered event)
    (hlossless : ∀ entry ∈ output, Lossless forms network entry) :
    Spreading forms network state' := by
  have hsettings := settings_moves hmoves
  refine ⟨by rw [hsettings]; exact h.legible, ?_⟩
  intro i j m n c hlinked
  rw [hsettings] at hlinked
  obtain ⟨source, target, speaker, speaker', hbetween⟩ := h.links i j m n c hlinked
  have hlegible := h.legible i _ (setting_of_thread hbetween.sourceRole.present)
  exact hbetween.moves hlinked hlegible hmoves hunhindered hlossless

theorem Spreading.run (h : Spreading forms network state)
    (hrun : run forms state events = .ok (state', history))
    (hundisturbed : Undisturbed forms network events history) : Spreading forms network state' := by
  induction events generalizing state history with
  | nil =>
    obtain ⟨rfl, -⟩ := Prod.mk.inj (Except.ok.inj hrun)
    exact h
  | cons event rest ih =>
    obtain ⟨next, output, later, hmoves, hrest, rfl⟩ := run_cons hrun
    obtain ⟨hunhindered, hlossless, hlater⟩ := undisturbed_cons hundisturbed
    exact ih (h.moves hmoves hunhindered hlossless) hrest hlater

theorem settings_run (hrun : run forms state events = .ok (state', history)) :
    settings state' = settings state := funext (setting_run hrun)

/-- What has reached the target stays there. -/
theorem Reached.run (h : Reached forms network state j n c target speaker)
    (hlinked : Linked forms network (settings state) i j m n c)
    (hrun : run forms state events = .ok (state', history))
    (hundisturbed : Undisturbed forms network events history) :
    ∃ target' speaker', Reached forms network state' j n c target' speaker' := by
  induction events generalizing state history target speaker with
  | nil =>
    obtain ⟨rfl, -⟩ := Prod.mk.inj (Except.ok.inj hrun)
    exact ⟨target, speaker, h⟩
  | cons event rest ih =>
    obtain ⟨next, output, later, hmoves, hrest, rfl⟩ := run_cons hrun
    obtain ⟨hunhindered, hlossless, hlater⟩ := undisturbed_cons hundisturbed
    obtain ⟨target', speaker', h'⟩ := h.moves hlinked hmoves hunhindered hlossless
    rw [← settings_moves hmoves] at hlinked
    exact ih h' hlinked hrest hlater

/-- What is known stays known. -/
theorem knows_run (h : Role state j target speaker) (hknows : Knows network speaker)
    (hlinked : Linked forms network (settings state) i j m n c)
    (hrun : run forms state events = .ok (state', history))
    (hundisturbed : Undisturbed forms network events history) :
    ∃ target' speaker', Role state' j target' speaker' ∧ Knows network speaker' := by
  induction events generalizing state history target speaker with
  | nil =>
    obtain ⟨rfl, -⟩ := Prod.mk.inj (Except.ok.inj hrun)
    exact ⟨target, speaker, h, hknows⟩
  | cons event rest ih =>
    obtain ⟨next, output, later, hmoves, hrest, rfl⟩ := run_cons hrun
    obtain ⟨hunhindered, hlossless, hlater⟩ := undisturbed_cons hundisturbed
    obtain ⟨target', speaker', hrole, -, -, hkeeps, -⟩ :=
      target_moves h hlinked hmoves hunhindered hlossless
    rw [← settings_moves hmoves] at hlinked
    exact ih hrole (hkeeps hknows) hlinked hrest hlater

/-- By the end of a run in which the target publishes, it knows what was due. The induction is on
the events up to that one. -/
theorem Due.run {ad : Advertisement} (h : Due forms network state j n c target speaker)
    (hlinked : Linked forms network (settings state) i j m n c)
    (hrun : run forms state events = .ok (state', history))
    (hundisturbed : Undisturbed forms network events history)
    (hpublish : (some j, .publish ad) ∈ history) :
    ∃ target' speaker', Role state' j target' speaker' ∧ Knows network speaker' := by
  induction events generalizing state history target speaker with
  | nil =>
    obtain ⟨-, rfl⟩ := Prod.mk.inj (Except.ok.inj hrun)
    exact absurd hpublish List.not_mem_nil
  | cons event rest ih =>
    obtain ⟨next, output, later, hmoves, hrest, rfl⟩ := run_cons hrun
    obtain ⟨hunhindered, hlossless, hlater⟩ := undisturbed_cons hundisturbed
    obtain ⟨target', speaker', hrole, hcases⟩ := h.moves hlinked hmoves hunhindered hlossless
    rw [← settings_moves hmoves] at hlinked
    rcases hcases with hknows | ⟨hno, hdue⟩
    · exact knows_run hrole hknows hlinked hrest hlater
    · refine ih hdue hlinked hrest hlater ?_
      rcases List.mem_append.mp hpublish with hnow | hlater
      · exact absurd (Option.mem_toList.mp hnow) (hno ad)
      · exact hlater

end Runs

/-- Along a path of links, each thread in turn has a whole cycle, from its start over the making
of its advertisement to the next start. Between the cycles anything undisturbed may happen. -/
inductive Relayed {ι : Type*} [DecidableEq ι] (forms : TextForms) (network : IpNetwork)
    (state : Threads ι) (i : ι) : Threads ι → ι → Prop
  | start (hstart : AtStart state i) : Relayed forms network state i state i
  | hop {reached started state' : Threads ι} {j k : ι} {m n : ℕ} {c : ChannelId}
      {waiting cycle : List (Event ι)} {before after : List (Option ι × Effect)}
      {ad : Advertisement} (h : Relayed forms network state i reached j)
      (hlinked : Linked forms network (settings state) j k m n c)
      (hwaiting : run forms reached waiting = .ok (started, before))
      (hbefore : Undisturbed forms network waiting before)
      (hstarted : AtStart started k)
      (hcycle : run forms started cycle = .ok (state', after))
      (hafter : Undisturbed forms network cycle after)
      (hpublish : (some k, .publish ad) ∈ after) (hend : AtStart state' k) :
      Relayed forms network state i state' k

section Paths
variable {forms : TextForms} {network : IpNetwork} {ι : Type*} [DecidableEq ι]
  {state state' : Threads ι} {i j : ι}

/-- One hop after the other, the prefix follows the path. -/
theorem Relayed.hasRoute (h : Relayed forms network state i state' j)
    (hspreading : Spreading forms network state) (hroute : HasRoute state i network) :
    Spreading forms network state' ∧ settings state' = settings state ∧ AtStart state' j ∧
      HasRoute state' j network := by
  induction h with
  | start hstart => exact ⟨hspreading, rfl, hstart, hroute⟩
  | hop h hlinked hwaiting hbefore hstarted hcycle hafter hpublish hend ih =>
    obtain ⟨hreached, hsettings, ⟨source, hsource, hstage⟩, hknown⟩ := ih
    have hlinked' := hlinked
    rw [← hsettings] at hlinked
    obtain ⟨source', target, speaker, speaker', hbetween⟩ := hreached.links _ _ _ _ _ hlinked
    obtain rfl := Option.some.inj (hsource.symm.trans hbetween.sourceRole.present)
    have hknows := (hasRoute_iff hbetween.sourceRole).mp hknown
    obtain ⟨target', heard, hthere⟩ := (hbetween.reached hstage hknows).run hlinked hwaiting hbefore
    rw [← settings_run hwaiting] at hlinked
    obtain ⟨self, hself, hselfStage⟩ := hstarted
    obtain rfl := Option.some.inj (hself.symm.trans hthere.role.present)
    have hahead : ∀ n, Ahead n self.stage := by
      intro n
      rw [hselfStage]
      exact Nat.zero_le n
    have hdue : Due forms network _ _ _ _ self heard :=
      ⟨hthere.role, hthere.reaches.imp id (fun hw => ⟨hahead _, hw⟩)⟩
    obtain ⟨target'', heard', hrole, hknows'⟩ := hdue.run hlinked hcycle hafter hpublish
    refine ⟨(hreached.run hwaiting hbefore).run hcycle hafter, ?_, hend,
      (hasRoute_iff hrole).mpr hknows'⟩
    rw [settings_run hcycle, settings_run hwaiting, hsettings]

end Paths

end NetfabricBgp.SpreadRuns
