import NetfabricBgp.LockContentions
import NetfabricBgp.ReferenceStores
import NetfabricBgp.ThreadSteps

/-!
The effects of a run tell what became of everything that threads share. In their order, the
updates of a RIB are one run of its operations, however the threads interleave, and the
messages of a channel leave it as they were put on it.
-/
namespace NetfabricBgp.ThreadHistories

open Addresses Routes RouterMasks Ribs RibInvariants RibInterfaces Advertisements KeyedLog
  BoundedQueues Channels Interfaces Sessions Processes Supplies LinkThreads NeighbourReplays Routers
  ProcessThreads ThreadSteps
open LockContentions (opsOf)

variable {forms : TextForms}

/-- What an effect does to the shared state. -/
def Changes (forms : TextForms) (effect : Effect) (before after : Shared) : Prop :=
  match effect with
  | .take id message | .discard id message =>
    (∃ rest, (before.links id).queue.items = message :: rest) ∧ after = Shared.pop before id
  | .put id message =>
    ∃ channel, (before.links id).trySend message = .ok channel ∧
      after = Shared.setLink before id channel
  | .refuse id message => (∃ e, (before.links id).trySend message = .error e) ∧ after = before
  | .apply rib client ad =>
    ∃ rib', (before.ribs rib).run (opsOf forms client ad) = .ok rib' ∧
      after = Shared.setRib before rib rib'
  | .skip _ | .publish _ => after = before

section Effects
variable {instant : Instant} {shared shared' : Shared} {self self' : Thread}
  {effect : Option Effect}

/-- With the lock taken, an advertisement is a run of its calls. -/
theorem run_of_updateLocked {self self' : BgpRibInterface} {rib rib' : BgpRib}
    {ad : Advertisement} (h : self.updateLocked forms rib ad = .ok (rib', self')) :
    rib.run (opsOf forms self.clientId ad) = .ok rib' := by
  rw [updateLocked_eq] at h
  obtain ⟨⟨next, changes⟩, hcollect, heq⟩ := Runs.map_eq_ok.mp h
  obtain ⟨rfl, -⟩ := Prod.mk.inj heq
  rw [opsOf, run_opOf, hcollect]
  rfl

/-- A step without an effect changes nothing that is shared. -/
theorem shared_of_steps (h : Steps forms instant shared self shared' self' none) :
    shared' = shared := by
  cases h <;> rfl

theorem changes_of_steps {effect : Effect}
    (h : Steps forms instant shared self shared' self' (some effect)) :
    Changes forms effect shared shared' := by
  cases h with
  | take n interface interface' id message rest hstage hat hin hqueue htake =>
    exact ⟨⟨rest, hqueue⟩, rfl⟩
  | discardForeign n interface id message rest hstage hat hin hqueue hcast =>
    exact ⟨⟨rest, hqueue⟩, rfl⟩
  | discardFull n interface id ad rest hstage hat hin hqueue hkeep hfull =>
    exact ⟨⟨rest, hqueue⟩, rfl⟩
  | skip ad rest hstage hlock => exact rfl
  | apply ad rest rib ribInterface hstage hlock hupdate =>
    exact ⟨rib, run_of_updateLocked hupdate, rfl⟩
  | publish hstage => exact rfl
  | put n interface ad rest id channel hstage hat hout hkeep hsend => exact ⟨channel, hsend, rfl⟩
  | refuse n interface ad rest id e hstage hat hout hkeep hsend => exact ⟨⟨e, hsend⟩, rfl⟩

variable {ι : Type*} [DecidableEq ι] {state state' : Threads ι} {event : Event ι}

theorem shared_of_moves (h : Moves forms state event state' none) :
    state'.shared = state.shared := by
  generalize houtput : (none : Option (Option ι × Effect)) = output at h
  cases h with
  | act i instant self self' shared effect hthread hsteps =>
    cases effect with
    | none => exact shared_of_steps hsteps
    | some effect => cases houtput
  | absent => rfl
  | leaveNothing => rfl
  | _ => cases houtput

theorem changes_of_moves {actor : Option ι} {effect : Effect}
    (h : Moves forms state event state' (some (actor, effect))) :
    Changes forms effect state.shared state'.shared := by
  generalize houtput : some (actor, effect) = output at h
  cases h with
  | act i instant self self' shared effect' hthread hsteps =>
    cases effect' with
    | none => cases houtput
    | some effect' =>
      obtain ⟨-, rfl⟩ := Prod.mk.inj (Option.some.inj houtput)
      exact changes_of_steps hsteps
  | arrive id message channel hsend =>
    obtain ⟨-, rfl⟩ := Prod.mk.inj (Option.some.inj houtput)
    exact ⟨channel, hsend, rfl⟩
  | arriveFull id message e hsend =>
    obtain ⟨-, rfl⟩ := Prod.mk.inj (Option.some.inj houtput)
    exact ⟨⟨e, hsend⟩, rfl⟩
  | leave id message rest hqueue =>
    obtain ⟨-, rfl⟩ := Prod.mk.inj (Option.some.inj houtput)
    exact ⟨⟨rest, hqueue⟩, rfl⟩
  | absent => cases houtput
  | leaveNothing => cases houtput

end Effects

section Moments
variable {ι : Type*} [DecidableEq ι] {state state' : Threads ι} {event : Event ι}
  {events earlier : List (Event ι)} {history : List (Option ι × Effect)} {i : ι} {self : Thread}
  {effect : Effect}

/-- After the earlier events of a run, a thread that is as given takes a step with this effect. -/
def Does (forms : TextForms) (state : Threads ι) (events earlier : List (Event ι)) (i : ι)
    (self : Thread) (effect : Effect) : Prop :=
  ∃ instant later reached before next, events = earlier ++ .act i instant :: later ∧
    run forms state earlier = .ok (reached, before) ∧ reached.thread i = some self ∧
      step forms reached (.act i instant) = .ok (next, some (some i, effect))

theorem Does.steps (h : Does forms state events earlier i self effect) :
    ∃ instant reached before shared self', run forms state earlier = .ok (reached, before) ∧
      reached.thread i = some self ∧
        Steps forms instant reached.shared self shared self' (some effect) := by
  obtain ⟨instant, later, reached, before, next, -, hrun, hself, hstep⟩ := h
  obtain ⟨self', done, hsteps, -, hdone⟩ := act_cases hself (moves_of_step hstep)
  obtain ⟨effect', rfl, heq⟩ := Option.map_eq_some_iff.mp hdone.symm
  obtain ⟨-, rfl⟩ := Prod.mk.inj heq
  exact ⟨instant, reached, before, next.shared, self', hrun, hself, hsteps⟩

/-- What is done after one event is done in the run that begins with it. -/
theorem Does.cons {next : Threads ι} {output : Option (Option ι × Effect)}
    (hstep : step forms state event = .ok (next, output))
    (h : Does forms next events earlier i self effect) :
    Does forms state (event :: events) (event :: earlier) i self effect := by
  obtain ⟨instant, later, reached, before, last, rfl, hrun, hself, hlast⟩ := h
  exact ⟨instant, later, reached, output.toList ++ before, last, rfl,
    Runs.collect_cons_ok.mpr ⟨next, output, before, hstep, hrun, rfl⟩, hself, hlast⟩

/-- Only a thread's own steps have effects in its name. -/
theorem act_of_moves (h : Moves forms state event state' (some (some i, effect))) :
    ∃ instant self self', event = .act i instant ∧ state.thread i = some self ∧
      Steps forms instant state.shared self state'.shared self' (some effect) := by
  generalize houtput : some (some i, effect) = output at h
  cases h with
  | act k instant self self' shared done hthread hsteps =>
    cases done with
    | none => cases houtput
    | some done =>
      obtain ⟨hik, rfl⟩ := Prod.mk.inj (Option.some.inj houtput)
      obtain rfl := Option.some.inj hik
      exact ⟨instant, self, self', rfl, hthread, hsteps⟩
  | absent => cases houtput
  | leaveNothing => cases houtput
  | _ => cases Option.some.inj houtput

theorem exists_does (hrun : run forms state events = .ok (state', history))
    (hmem : (some i, effect) ∈ history) :
    ∃ earlier self, Does forms state events earlier i self effect := by
  obtain ⟨before, after, rfl⟩ := List.append_of_mem hmem
  obtain ⟨earlier, event, later, reached, next, rfl, hearlier, hstep, -⟩ :=
    Runs.collect_eq_append_cons hrun
  obtain ⟨instant, self, -, rfl, hself, -⟩ := act_of_moves (moves_of_step hstep)
  exact ⟨earlier, self, instant, later, reached, before, next, rfl, hearlier, hself, hstep⟩

end Moments

section RibHistories

/-- The calls that an effect makes on a RIB. -/
def callsOn (forms : TextForms) (rib : RibId) : Effect → List BgpRib.Op
  | .apply other client ad => if other = rib then opsOf forms client ad else []
  | _ => []

/-- What an effect asks of a RIB in the name of a client. -/
def appliedTo (forms : TextForms) (rib : RibId) (client : Uuid) : Effect → List (Entry Route)
  | .apply other id ad => if other = rib ∧ id = client then ad.entries forms else []
  | _ => []

theorem changes_rib {effect : Effect} {before after : Shared}
    (h : Changes forms effect before after) (rib : RibId) :
    (before.ribs rib).run (callsOn forms rib effect) = .ok (after.ribs rib) := by
  cases effect with
  | apply other client ad =>
    obtain ⟨rib', hrun, rfl⟩ := h
    by_cases hrib : other = rib
    · subst hrib
      simpa [callsOn, Shared.setRib] using hrun
    · have hne : rib ≠ other := fun heq => hrib heq.symm
      simp only [callsOn, hrib, if_false, Shared.setRib, Function.update_of_ne hne]
      rfl
  | take id message =>
    obtain ⟨-, rfl⟩ := h
    rfl
  | discard id message =>
    obtain ⟨-, rfl⟩ := h
    rfl
  | put id message =>
    obtain ⟨channel, -, rfl⟩ := h
    rfl
  | refuse id message =>
    obtain ⟨-, rfl⟩ := h
    rfl
  | skip ad =>
    obtain rfl : after = before := h
    rfl
  | publish ad =>
    obtain rfl : after = before := h
    rfl

theorem ownLog_callsOn (rib : RibId) (client : Uuid) (effect : Effect) :
    ReferenceStores.ownLog client (callsOn forms rib effect) =
      appliedTo forms rib client effect := by
  cases effect with
  | apply other id ad =>
    by_cases hrib : other = rib
    · by_cases hid : id = client
      · subst hid
        simp only [callsOn, appliedTo, hrib, if_true, opsOf, ownLog_opOf, and_self]
      · have hnone : ReferenceStores.ownLog client (opsOf forms id ad) = [] := by
          unfold ReferenceStores.ownLog opsOf
          rw [List.filterMap_eq_nil_iff]
          intro op hop
          obtain ⟨entry, -, rfl⟩ := List.mem_map.mp hop
          cases entry <;> simp [opOf, hid]
        simp [callsOn, appliedTo, hrib, hid, hnone]
    · simp [callsOn, appliedTo, hrib, ReferenceStores.ownLog]
  | _ => rfl

/-- The entries a client's threads have applied to a RIB, in the order of the whole run. -/
def appliedLog {ι : Type*} (forms : TextForms) (rib : RibId) (client : Uuid)
    (history : List (Option ι × Effect)) : List (Entry Route) :=
  history.flatMap (fun entry => appliedTo forms rib client entry.2)

theorem ownLog_calls {ι : Type*} (rib : RibId) (client : Uuid)
    (history : List (Option ι × Effect)) :
    ReferenceStores.ownLog client (history.flatMap (fun entry => callsOn forms rib entry.2)) =
      appliedLog forms rib client history := by
  unfold appliedLog
  induction history with
  | nil => rfl
  | cons entry rest ih =>
    have hcons : ∀ ops ops' : List BgpRib.Op, ReferenceStores.ownLog client (ops ++ ops') =
        ReferenceStores.ownLog client ops ++ ReferenceStores.ownLog client ops' :=
      fun ops ops' => List.filterMap_append
    rw [List.flatMap_cons, List.flatMap_cons, hcons, ih, ownLog_callsOn]

theorem ownLog_started {ι : Type*} (rib : RibId) (client : Uuid) (ids : List Uuid)
    (history : List (Option ι × Effect)) :
    ReferenceStores.ownLog client (ids.map .registerRouter ++
        history.flatMap (fun entry => callsOn forms rib entry.2)) =
      appliedLog forms rib client history := by
  rw [← ownLog_calls]
  unfold ReferenceStores.ownLog
  rw [List.filterMap_append]
  simp

variable {ι : Type*} [DecidableEq ι] {state state' : Threads ι} {events : List (Event ι)}
  {history : List (Option ι × Effect)}

/-- What happens to a RIB is one run of its operations, in the order of the effects. -/
theorem rib_run (h : run forms state events = .ok (state', history)) (rib : RibId) :
    (state.shared.ribs rib).run (history.flatMap (fun entry => callsOn forms rib entry.2)) =
      .ok (state'.shared.ribs rib) := by
  induction events generalizing state history with
  | nil =>
    obtain ⟨rfl, rfl⟩ := Prod.mk.inj (Except.ok.inj h)
    rfl
  | cons event rest ih =>
    obtain ⟨next, output, later, hmoves, hrest, rfl⟩ := run_cons h
    cases output with
    | none =>
      rw [← shared_of_moves hmoves]
      exact ih hrest
    | some entry =>
      rw [Option.toList_some, List.singleton_append, List.flatMap_cons]
      exact Runs.run_append_ok.mpr ⟨_, changes_rib (changes_of_moves hmoves) rib, ih hrest⟩

/-- In every interleaving, a client of a RIB that started without routes holds what is live in
the log of the advertisements that its own threads applied there, and no step of another
client's threads is part of that log. -/
theorem held_run_iff (h : run forms state events = .ok (state', history)) (rib : RibId)
    (hstart : ∃ ids : List Uuid,
      BgpRib.new.run (ids.map .registerRouter) = .ok (state.shared.ribs rib))
    (client : Uuid) (network : IpNetwork) (route : Route) :
    route ∈ (state'.shared.ribs rib).held client network ↔
      Live Route.key (appliedLog forms rib client history) route ∧ route.pfx = network := by
  obtain ⟨ids, hids⟩ := hstart
  have hrun := Runs.run_append_ok.mpr ⟨_, hids, rib_run h rib⟩
  rw [ReferenceStores.mem_held_iff_live hrun, ownLog_started]

/-- A process with one session between two channels. -/
def linkedProcess (client : Uuid) (rib : RibId) (inChannel outChannel : ChannelId) :
    HostedProcess where
  process := { BgpProcess.new 0 ⟨client, [], []⟩ with
    sessions := [(BgpSession.new 0).withInterface
      { id := 0
        ipAddress := .V4 0
        inChannel := some inChannel
        outChannel := some outChannel
        inFilter := NoFilter
        outFilter := NoFilter
        incomingAdvertisements := .empty 10
        outgoingAdvertisements := .empty 10
        bufferSizeIncoming := 10
        bufferSizeOutgoing := 10 }]
    config := ⟨.V4 0x0A000001#32, 65000⟩ }
  rib := rib

/-- Two threads, and a channel from the first to the second. -/
def linkedThreads : Threads ℕ where
  thread := fun i =>
    if i = 0 then some (.start (linkedProcess 1 0 0 1))
    else if i = 1 then some (.start (linkedProcess 2 1 1 2))
    else none
  shared := ⟨fun _ => .create 10, fun _ => .new⟩

theorem linkedThreads_cases {i : ℕ} {self : Thread} (h : linkedThreads.thread i = some self) :
    i = 0 ∧ self = .start (linkedProcess 1 0 0 1) ∨
      i = 1 ∧ self = .start (linkedProcess 2 1 1 2) := by
  simp only [linkedThreads] at h
  by_cases hzero : i = 0
  · rw [if_pos hzero] at h
    exact Or.inl ⟨hzero, (Option.some.inj h).symm⟩
  · rw [if_neg hzero] at h
    by_cases hone : i = 1
    · rw [if_pos hone] at h
      exact Or.inr ⟨hone, (Option.some.inj h).symm⟩
    · rw [if_neg hone] at h
      cases h

/-- A cycle of each thread, with one advertisement for the first. -/
def announcingEvents (nextHop : String) : List (Event ℕ) :=
  .arrive 0 (.advertisement (.sample "10.0.0.2" nextHop [65001] true false)) ::
    (List.replicate 11 (.act 0 ⟨.acquired, 0⟩) ++ List.replicate 11 (.act 1 ⟨.acquired, 0⟩))

/-- What the first thread hears from outside reaches the RIB of the second. -/
theorem exists_announcing :
    ∃ state' history,
      run .sample linkedThreads (announcingEvents "10.0.0.2") = .ok (state', history) ∧
      (⟨.V4 0x0A000001#32, .V4 (.around 0x0A000000#32 8), "10.0.0.2", []⟩ : Route) ∈
        (state'.shared.ribs 1).held 2 (.V4 (.around 0x0A000000#32 8)) :=
  ⟨_, _, rfl, by decide⟩

theorem held_run_iff_linked :
    ∃ state' history,
      run .sample linkedThreads (announcingEvents "10.0.0.2") = .ok (state', history) ∧
      ∀ route, route ∈ (state'.shared.ribs 1).held 2 (.V4 (.around 0x0A000000#32 8)) ↔
        Live Route.key (appliedLog .sample 1 2 history) route ∧
          route.pfx = .V4 (.around 0x0A000000#32 8) := by
  obtain ⟨state', history, hrun, -⟩ := exists_announcing
  exact ⟨state', history, hrun, held_run_iff hrun 1 ⟨[], rfl⟩ 2 _⟩

end RibHistories

section ChannelHistories

/-- What an effect puts on a channel. -/
def putOn (id : ChannelId) : Effect → List Message
  | .put other message => if other = id then [message] else []
  | _ => []

/-- What an effect takes from a channel. -/
def takenFrom (id : ChannelId) : Effect → List Message
  | .take other message => if other = id then [message] else []
  | .discard other message => if other = id then [message] else []
  | _ => []

theorem pop_items {shared : Shared} {id : ChannelId} {message : Message}
    (hqueue : ∃ rest, (shared.links id).queue.items = message :: rest) (other : ChannelId) :
    (shared.links other).queue.items =
      (if id = other then [message] else []) ++
        ((Shared.pop shared id).links other).queue.items := by
  obtain ⟨rest, hqueue⟩ := hqueue
  by_cases hother : id = other
  · subst hother
    simp [Shared.pop, Endpoint.pop, Bounded.keepSuffix, hqueue]
  · have hne : other ≠ id := fun heq => hother heq.symm
    simp [Shared.pop, hother, Function.update_of_ne hne]

theorem changes_queue {effect : Effect} {before after : Shared}
    (h : Changes forms effect before after) (id : ChannelId) :
    (before.links id).queue.items ++ putOn id effect =
      takenFrom id effect ++ (after.links id).queue.items := by
  cases effect with
  | take other message =>
    obtain ⟨hqueue, rfl⟩ := h
    exact (List.append_nil _).trans (pop_items hqueue id)
  | discard other message =>
    obtain ⟨hqueue, rfl⟩ := h
    exact (List.append_nil _).trans (pop_items hqueue id)
  | put other message =>
    obtain ⟨channel, hsend, rfl⟩ := h
    have hitems := Channel.items_of_trySend hsend
    by_cases hother : other = id
    · subst hother
      simp [putOn, takenFrom, Shared.setLink, hitems]
    · have hne : id ≠ other := fun heq => hother heq.symm
      simp [putOn, takenFrom, Shared.setLink, hother, Function.update_of_ne hne]
  | refuse other message =>
    obtain ⟨-, rfl⟩ := h
    exact List.append_nil _
  | apply rib client ad =>
    obtain ⟨rib', -, rfl⟩ := h
    exact List.append_nil _
  | skip ad =>
    obtain rfl : after = before := h
    exact List.append_nil _
  | publish ad =>
    obtain rfl : after = before := h
    exact List.append_nil _

variable {ι : Type*} [DecidableEq ι] {state state' : Threads ι} {events : List (Event ι)}
  {history : List (Option ι × Effect)}

/-- What was on a channel and what was put on it is what was taken from it and what is on it
still, in one order. -/
theorem queue_run (h : run forms state events = .ok (state', history)) (id : ChannelId) :
    (state.shared.links id).queue.items ++ history.flatMap (fun entry => putOn id entry.2) =
      history.flatMap (fun entry => takenFrom id entry.2) ++
        (state'.shared.links id).queue.items := by
  induction events generalizing state history with
  | nil =>
    obtain ⟨rfl, rfl⟩ := Prod.mk.inj (Except.ok.inj h)
    simp
  | cons event rest ih =>
    obtain ⟨next, output, later, hmoves, hrest, rfl⟩ := run_cons h
    have hlater := ih hrest
    cases output with
    | none =>
      rw [shared_of_moves hmoves] at hlater
      exact hlater
    | some entry =>
      have hone := changes_queue (changes_of_moves hmoves) id
      rw [Option.toList_some, List.singleton_append, List.flatMap_cons, List.flatMap_cons,
        ← List.append_assoc, hone, List.append_assoc, hlater, List.append_assoc]

end ChannelHistories

section Panics

/-- Every RIB has masks for all the clients that the threads use it for. -/
structure Roomy {ι : Type*} (state : Threads ι) : Prop where
  wellFormed : ∀ rib, WellFormed (state.shared.ribs rib)
  clients : ∀ rib, ∃ ids : Finset Uuid, ids.card ≤ 64 ∧
    (state.shared.ribs rib).routerMaskMap.map.keys ⊆ ids ∧
    ∀ i self, state.thread i = some self → self.rib = rib →
      self.process.ribInterface.clientId ∈ ids

theorem routers_opsOf (client : Uuid) (ad : Advertisement) {router : Uuid}
    (h : router ∈ ((opsOf forms client ad).map BgpRib.Op.router).toFinset) : router = client := by
  rw [List.mem_toFinset] at h
  obtain ⟨op, hop, rfl⟩ := List.mem_map.mp h
  obtain ⟨entry, -, rfl⟩ := List.mem_map.mp hop
  cases entry <;> rfl

theorem updateLocked_total {self : BgpRibInterface} {rib : BgpRib} {ids : Finset Uuid}
    (hrib : WellFormed rib) (hcard : ids.card ≤ 64) (hkeys : rib.routerMaskMap.map.keys ⊆ ids)
    (hclient : self.clientId ∈ ids) (ad : Advertisement) :
    ∃ reached, self.updateLocked forms rib ad = .ok reached := by
  have hsub : rib.routerMaskMap.map.keys ∪
      ((opsOf forms self.clientId ad).map BgpRib.Op.router).toFinset ⊆ ids := by
    apply Finset.union_subset hkeys
    intro router hrouter
    rw [routers_opsOf _ _ hrouter]
    exact hclient
  obtain ⟨rib', hrun⟩ := run_total hrib ((Finset.card_le_card hsub).trans hcard)
  rw [opsOf, run_opOf] at hrun
  obtain ⟨⟨next, changes⟩, hcollect, -⟩ := Runs.map_eq_ok.mp hrun
  rw [updateLocked_eq, hcollect]
  exact ⟨_, rfl⟩

theorem step_total {instant : Instant} {shared : Shared} {self : Thread}
    (h : ∀ ad, ∃ reached,
      self.process.ribInterface.updateLocked forms (shared.ribs self.rib) ad = .ok reached) :
    ∃ reached, self.step forms instant shared = .ok reached := by
  unfold Thread.step
  cases self.stage with
  | update ads =>
    cases ads with
    | nil => exact ⟨_, rfl⟩
    | cons ad rest =>
      cases instant.lock with
      | timedOut => exact ⟨_, rfl⟩
      | acquired =>
        obtain ⟨reached, hupdate⟩ := h ad
        simp only [Thread.applyUpdate, hupdate]
        exact ⟨_, rfl⟩
  | receiving n => cases hat : self.interfaceAt n <;> simp only [hat] <;> exact ⟨_, rfl⟩
  | sending n ads =>
    cases ads with
    | nil => exact ⟨_, rfl⟩
    | cons ad rest => cases hat : self.interfaceAt n <;> simp only [hat] <;> exact ⟨_, rfl⟩
  | _ => exact ⟨_, rfl⟩

variable {ι : Type*} [DecidableEq ι] {state state' : Threads ι} {event : Event ι}
  {output : Option (Option ι × Effect)}

/-- No event of a network whose RIBs have room panics. -/
theorem Roomy.exists_moves (h : Roomy state) (event : Event ι) :
    ∃ reached, step forms state event = .ok reached := by
  cases event with
  | act i instant =>
    simp only [step]
    cases hthread : state.thread i with
    | none => exact ⟨_, rfl⟩
    | some self =>
      obtain ⟨ids, hcard, hkeys, hclients⟩ := h.clients self.rib
      obtain ⟨⟨⟨shared, self'⟩, effect⟩, hstep⟩ := @step_total forms instant state.shared self
        (updateLocked_total (h.wellFormed self.rib) hcard hkeys (hclients i self hthread rfl))
      simp only [hstep]
      exact ⟨_, rfl⟩
  | arrive id message =>
    simp only [step]
    cases (state.shared.links id).trySend message <;> exact ⟨_, rfl⟩
  | leave id =>
    simp only [step]
    cases (state.shared.links id).queue.items <;> exact ⟨_, rfl⟩

theorem keys_changes {effect : Effect} {before after : Shared}
    (h : Changes forms effect before after) (rib : RibId) {ids : Finset Uuid}
    (hkeys : (before.ribs rib).routerMaskMap.map.keys ⊆ ids)
    (hclient : ∀ client ad, effect = .apply rib client ad → client ∈ ids) :
    (after.ribs rib).routerMaskMap.map.keys ⊆ ids := by
  rw [keys_run (changes_rib h rib)]
  apply Finset.union_subset hkeys
  intro router hrouter
  cases effect with
  | apply other client ad =>
    by_cases hrib : other = rib
    · subst hrib
      simp only [callsOn, if_true] at hrouter
      rw [routers_opsOf _ _ hrouter]
      exact hclient client ad rfl
    · simp [callsOn, hrib] at hrouter
  | _ => simp [callsOn] at hrouter

/-- Only a thread itself updates its RIB, and in its own name. -/
theorem apply_of_moves {actor : Option ι} {rib : RibId} {client : Uuid} {ad : Advertisement}
    (h : Moves forms state event state' (some (actor, .apply rib client ad))) :
    ∃ i self rest, actor = some i ∧ state.thread i = some self ∧ self.rib = rib ∧
      self.process.ribInterface.clientId = client ∧ self.stage = .update (ad :: rest) := by
  generalize houtput : some (actor, Effect.apply rib client ad) = output at h
  cases h with
  | act i instant self self' shared effect hthread hsteps =>
    cases effect with
    | none => cases houtput
    | some effect =>
      obtain ⟨rfl, rfl⟩ := Prod.mk.inj (Option.some.inj houtput)
      cases hsteps with
      | apply ad rest rib' ribInterface hstage hlock hupdate =>
        exact ⟨i, self, rest, rfl, hthread, rfl, rfl, hstage⟩
  | _ => cases houtput

theorem Roomy.moves (h : Roomy state) (hmoves : Moves forms state event state' output) :
    Roomy state' := by
  have hthreads : ∀ i self', state'.thread i = some self' → ∃ self, state.thread i = some self ∧
      self'.rib = self.rib ∧
        self'.process.ribInterface.clientId = self.process.ribInterface.clientId := by
    intro i self' hself'
    have hsetting := hmoves.setting i
    rw [hself', Option.map_some] at hsetting
    obtain ⟨self, hself, hsame⟩ := Option.map_eq_some_iff.mp hsetting.symm
    exact ⟨self, hself, congrArg Setting.rib hsame.symm, congrArg Setting.clientId hsame.symm⟩
  refine ⟨?_, ?_⟩
  · intro rib
    cases output with
    | none =>
      rw [shared_of_moves hmoves]
      exact h.wellFormed rib
    | some entry =>
      exact wellFormed_run (h.wellFormed rib) (changes_rib (changes_of_moves hmoves) rib)
  · intro rib
    obtain ⟨ids, hcard, hkeys, hclients⟩ := h.clients rib
    refine ⟨ids, hcard, ?_, ?_⟩
    · cases output with
      | none =>
        rw [shared_of_moves hmoves]
        exact hkeys
      | some entry =>
        refine keys_changes (changes_of_moves hmoves) rib hkeys ?_
        intro client ad heffect
        obtain ⟨actor, effect⟩ := entry
        obtain rfl : effect = .apply rib client ad := heffect
        obtain ⟨i, self, rest, -, hself, hrib, rfl, -⟩ := apply_of_moves hmoves
        exact hclients i self hself hrib
    · intro i self' hself' hrib
      obtain ⟨self, hself, hsame, hclient⟩ := hthreads i self' hself'
      rw [hclient]
      exact hclients i self hself (hsame ▸ hrib)

/-- While every RIB has masks for its clients, no interleaving panics. -/
theorem Roomy.exists_run (h : Roomy state) (events : List (Event ι)) :
    ∃ state' history, run forms state events = .ok (state', history) ∧ Roomy state' := by
  induction events generalizing state with
  | nil => exact ⟨state, [], rfl, h⟩
  | cons event rest ih =>
    obtain ⟨⟨next, output⟩, hstep⟩ := @Roomy.exists_moves forms _ _ _ h event
    obtain ⟨state', history, hrun, hroomy⟩ := ih (h.moves (moves_of_step hstep))
    refine ⟨state', output.toList ++ history, ?_, hroomy⟩
    exact Runs.collect_cons_ok.mpr ⟨next, output, history, hstep, hrun, rfl⟩

end Panics

end NetfabricBgp.ThreadHistories
