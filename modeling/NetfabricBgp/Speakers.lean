import NetfabricBgp.ClientTables
import NetfabricBgp.ThreadHistories

/-!
What a process is for its neighbours: it hears advertisements, keeps a table of routes, and
tells from time to time which best routes have changed. A thread whose process has a RIB of its
own is such a speaker in every interleaving: its routes and whatever it tells are a function of
what it has heard, in the order in which it has heard it.
-/
namespace NetfabricBgp.Speakers

open Addresses Routes RouterMasks Ribs RibInterfaces Advertisements KeyedLog Channels Processes
  Supplies ClientTables NeighbourReplays ProcessThreads ThreadSteps ThreadHistories

/-- The routes of a process, and the changes that it has not told yet. -/
structure Speaker where
  table : List Route
  pending : List BestRoute × List BestRoute

namespace Speaker

def silent : Speaker := ⟨[], [], []⟩

variable (forms : TextForms)

/-- The changes that an advertisement makes. -/
def changes (self : Speaker) (ad : Advertisement) : List (Entry BestRoute) :=
  Runs.outputs (next Route.key) report self.table (ad.entries forms)

def hear (self : Speaker) (ad : Advertisement) : Speaker where
  table := (ad.entries forms).foldl (next Route.key) self.table
  pending := (self.pending.1 ++ added (self.changes forms ad),
    self.pending.2 ++ retracted (self.changes forms ad))

def tell (self : Speaker) : Speaker := { self with pending := ([], []) }

def after (self : Speaker) : Effect → Speaker
  | .apply _ _ ad => self.hear forms ad
  | .publish _ => self.tell
  | _ => self

end Speaker

/-- The advertisement that tells some changes. -/
def advertisementOf (forms : TextForms) (setting : Setting) (timestamp : UInt64)
    (pending : List BestRoute × List BestRoute) : Advertisement where
  timestamp := timestamp
  peer := forms.addrToString setting.config.ip
  peerAsn := toString setting.config.asNumber.toNat
  id := forms.uuidToString setting.id
  host := forms.addrToString setting.config.ip
  msgType := .Update
  path := none
  community := none
  origin := none
  announcements := some (pending.1.map (fun best =>
    ⟨best.route.nextHop, [forms.networkToString best.route.pfx]⟩))
  raw := some ""
  withdrawals := some (pending.2.map (fun best => forms.networkToString best.route.pfx))

section Refinement
variable {forms : TextForms} {instant : Instant} {shared shared' : Shared} {self self' : Thread}
  {effect : Option Effect} {speaker : Speaker}

/-- The thread's process, on its RIB, is this speaker. -/
structure Speaks (shared : Shared) (thread : Thread) (speaker : Speaker) : Prop where
  table : Represents (shared.ribs thread.rib) thread.process.ribInterface.clientId speaker.table
  pending : thread.process.ribInterface.bestrouteUpdates = speaker.pending

/-- A client alone on its RIB processes an advertisement as a speaker hears it. -/
theorem Speaks.updateLocked (h : Speaks shared self speaker) (ad : Advertisement) :
    ∃ rib, self.process.ribInterface.updateLocked forms (shared.ribs self.rib) ad =
        .ok (rib, { self.process.ribInterface with
          bestrouteUpdates := (speaker.hear forms ad).pending }) ∧
      Represents rib self.process.ribInterface.clientId (speaker.hear forms ad).table := by
  obtain ⟨rib, hcollect, hrep⟩ := h.table.run (ad.entries forms)
  refine ⟨rib, ?_, hrep⟩
  rw [updateLocked_eq, hcollect]
  simp only [Except.map, BgpRibInterface.record, h.pending]
  rfl

/-- What a step tells: the changes that are pending. -/
def Tells (forms : TextForms) (setting : Setting) (speaker : Speaker) (effect : Effect) : Prop :=
  ∀ ad, effect = .publish ad →
    ∃ timestamp, ad = advertisementOf forms setting timestamp speaker.pending

/-- A step that does not update the RIB leaves the speaker as it is. -/
theorem Speaks.of_same (h : Speaks shared self speaker)
    (hribs : shared'.ribs = shared.ribs) (hrib : self'.rib = self.rib)
    (hinterface : self'.process.ribInterface = self.process.ribInterface) :
    Speaks shared' self' speaker := by
  refine ⟨?_, ?_⟩
  · rw [hribs, hrib, hinterface]
    exact h.table
  · rw [hinterface]
    exact h.pending

/-- An effect that is neither an update nor an advertisement. -/
theorem Speaks.of_unheard (done : Effect) (h : Speaks shared self speaker)
    (hribs : shared'.ribs = shared.ribs) (hrib : self'.rib = self.rib)
    (hinterface : self'.process.ribInterface = self.process.ribInterface)
    (hafter : speaker.after forms done = speaker) (hne : ∀ ad, done ≠ .publish ad) :
    Speaks shared' self' (speaker.after forms done) ∧
      Tells forms (settingOf self) speaker done := by
  refine ⟨?_, fun ad had => absurd had (hne ad)⟩
  rw [hafter]
  exact h.of_same hribs hrib hinterface

/-- A step of the thread itself is a step of the speaker. -/
theorem Speaks.steps {done : Effect} (h : Speaks shared self speaker)
    (hsteps : Steps forms instant shared self shared' self' (some done)) :
    Speaks shared' self' (speaker.after forms done) ∧
      Tells forms (settingOf self) speaker done := by
  cases hsteps with
  | apply ad rest rib ribInterface hstage hlock hupdate =>
    obtain ⟨rib', hupdate', hrep⟩ := h.updateLocked ad
    obtain ⟨rfl, rfl⟩ := Prod.mk.inj (Except.ok.inj (hupdate.symm.trans hupdate'))
    refine ⟨⟨?_, rfl⟩, fun ad' heq => by cases heq⟩
    show Represents (Function.update shared.ribs self.rib rib self.rib) _ _
    rw [Function.update_self]
    exact hrep
  | publish hstage =>
    refine ⟨⟨h.table, rfl⟩, ?_⟩
    intro ad had
    refine ⟨instant.timestamp, ?_⟩
    rw [← Effect.publish.inj had, ← h.pending]
    rfl
  | take => exact h.of_unheard (.take _ _) rfl rfl rfl rfl (fun _ heq => by cases heq)
  | discardForeign => exact h.of_unheard (.discard _ _) rfl rfl rfl rfl (fun _ heq => by cases heq)
  | discardFull => exact h.of_unheard (.discard _ _) rfl rfl rfl rfl (fun _ heq => by cases heq)
  | skip => exact h.of_unheard (.skip _) rfl rfl rfl rfl (fun _ heq => by cases heq)
  | put => exact h.of_unheard (.put _ _) rfl rfl rfl rfl (fun _ heq => by cases heq)
  | refuse => exact h.of_unheard (.refuse _ _) rfl rfl rfl rfl (fun _ heq => by cases heq)

theorem Speaks.steps_none (h : Speaks shared self speaker)
    (hsteps : Steps forms instant shared self shared' self' none) :
    Speaks shared' self' speaker := by
  cases hsteps <;> exact h.of_same rfl rfl rfl

end Refinement

section Networks
variable {forms : TextForms} {ι : Type*} [DecidableEq ι] {state state' : Threads ι} {i : ι}
  {self : Thread} {speaker : Speaker} {event : Event ι} {output : Option (Option ι × Effect)}

/-- The effects of a thread's own steps. -/
def ownEffects (i : ι) (history : List (Option ι × Effect)) : List Effect :=
  history.filterMap (fun entry => if entry.1 = some i then some entry.2 else none)

/-- The thread is the speaker, and its RIB is no other thread's. -/
structure SpeaksIn (state : Threads ι) (i : ι) (setting : Setting) (speaker : Speaker) :
    Prop where
  thread : ∃ self, state.thread i = some self ∧ settingOf self = setting ∧
    Speaks state.shared self speaker
  own : ∀ j other, state.thread j = some other → other.rib = setting.rib → j = i

variable {setting : Setting}

/-- No event but an update changes a RIB. -/
theorem ribs_of_changes {effect : Effect} {before after : Shared}
    (h : Changes forms effect before after) (rib : RibId)
    (hne : ∀ client ad, effect ≠ .apply rib client ad) : after.ribs rib = before.ribs rib := by
  have hrun := changes_rib h rib
  have hnil : callsOn forms rib effect = [] := by
    cases effect with
    | apply other client ad =>
      have hother : other ≠ rib := fun heq => hne client ad (heq ▸ rfl)
      simp [callsOn, hother]
    | _ => rfl
  rw [hnil] at hrun
  exact (Except.ok.inj hrun).symm

theorem own_moves (h : SpeaksIn state i setting speaker)
    (hmoves : Moves forms state event state' output) (j : ι) (other : Thread)
    (hother : state'.thread j = some other) (hrib : other.rib = setting.rib) : j = i := by
  have hsetting := hmoves.setting j
  rw [hother, Option.map_some] at hsetting
  obtain ⟨old, hold, hsame⟩ := Option.map_eq_some_iff.mp hsetting.symm
  exact h.own j old hold ((congrArg Setting.rib hsame).trans hrib)

/-- Whatever others do, the speaker stays as it is. -/
theorem SpeaksIn.moves_of_ne (h : SpeaksIn state i setting speaker)
    (hmoves : Moves forms state event state' output)
    (hne : ∀ entry ∈ output, entry.1 ≠ some i) : SpeaksIn state' i setting speaker := by
  obtain ⟨self, hself, hsetting, hspeaks⟩ := h.thread
  have hown := own_moves h hmoves
  have hthread : ∀ rib client ad actor, output = some (actor, .apply rib client ad) →
      rib ≠ self.rib := by
    intro rib client ad actor houtput hrib
    rw [houtput] at hmoves
    obtain ⟨j, other, rest, rfl, hother, hotherRib, -⟩ := apply_of_moves hmoves
    have hji := h.own j other hother (hotherRib.trans (hrib.trans (congrArg Setting.rib hsetting)))
    exact hne _ houtput (congrArg some hji)
  have hribs : state'.shared.ribs self.rib = state.shared.ribs self.rib := by
    cases output with
    | none => rw [shared_of_moves hmoves]
    | some entry =>
      obtain ⟨actor, effect⟩ := entry
      refine ribs_of_changes (changes_of_moves hmoves) self.rib ?_
      intro client ad heffect
      rw [heffect] at hmoves
      exact hthread self.rib client ad actor (by rw [heffect]) rfl
  have hkept : ∀ other, other.rib = self.rib →
      other.process.ribInterface = self.process.ribInterface →
        Speaks state'.shared other speaker := by
    intro other hrib hinterface
    refine ⟨?_, ?_⟩
    · rw [hrib, hinterface, hribs]
      exact hspeaks.table
    · rw [hinterface]
      exact hspeaks.pending
  refine ⟨?_, hown⟩
  cases hmoves with
  | act j instant old new shared effect hold hsteps =>
    by_cases hij : i = j
    · subst hij
      obtain rfl := Option.some.inj (hself.symm.trans hold)
      cases effect with
      | none =>
        refine ⟨new, setThread_self state i new shared, ?_, ?_⟩
        · rw [hsteps.settingOf_eq, hsetting]
        · exact hspeaks.steps_none hsteps
      | some done => exact absurd rfl (hne _ rfl)
    · exact ⟨self, (setThread_of_ne state hij new shared).trans hself, hsetting,
        hkept self rfl rfl⟩
  | _ => exact ⟨self, hself, hsetting, hkept self rfl rfl⟩

/-- What the thread itself does, the speaker does. -/
theorem SpeaksIn.moves_self {done : Effect} (h : SpeaksIn state i setting speaker)
    (hmoves : Moves forms state event state' (some (some i, done))) :
    SpeaksIn state' i setting (speaker.after forms done) ∧
      Tells forms setting speaker done := by
  have hown := own_moves h hmoves
  obtain ⟨self, hself, rfl, hspeaks⟩ := h.thread
  generalize houtput : some (some i, done) = output at hmoves
  cases hmoves with
  | act j instant old new shared effect hold hsteps =>
    cases effect with
    | none => cases houtput
    | some effect =>
      obtain ⟨hij, rfl⟩ := Prod.mk.inj (Option.some.inj houtput)
      obtain rfl := Option.some.inj hij
      obtain rfl := Option.some.inj (hself.symm.trans hold)
      obtain ⟨hnext, htells⟩ := hspeaks.steps hsteps
      exact ⟨⟨⟨new, setThread_self state i new shared, hsteps.settingOf_eq, hnext⟩, hown⟩, htells⟩
  | absent => cases houtput
  | leaveNothing => cases houtput
  | _ => cases Option.some.inj houtput

/-- A thread with a RIB of its own is a speaker in every interleaving: it holds what the
speaker has in its table, and all that it tells are the changes that are pending there. -/
theorem speaks_run {events : List (Event ι)} {history : List (Option ι × Effect)}
    (h : SpeaksIn state i setting speaker)
    (hrun : run forms state events = .ok (state', history)) :
    SpeaksIn state' i setting ((ownEffects i history).foldl (Speaker.after forms) speaker) ∧
      ∀ before done later, ownEffects i history = before ++ done :: later →
        Tells forms setting (before.foldl (Speaker.after forms) speaker) done := by
  induction events generalizing state history speaker with
  | nil =>
    obtain ⟨rfl, rfl⟩ := Prod.mk.inj (Except.ok.inj hrun)
    refine ⟨h, ?_⟩
    intro before done later heq
    simp [ownEffects] at heq
  | cons event rest ih =>
    obtain ⟨next, output, later, hmoves, hrest, rfl⟩ := run_cons hrun
    by_cases hactor : ∃ done, output = some (some i, done)
    · obtain ⟨done, rfl⟩ := hactor
      obtain ⟨hnext, htells⟩ := h.moves_self hmoves
      obtain ⟨hend, hlater⟩ := ih hnext hrest
      have hcons : ownEffects i ((some (some i, done)).toList ++ later) =
          done :: ownEffects i later := by
        simp [ownEffects]
      rw [hcons]
      refine ⟨hend, ?_⟩
      intro before done' after heq
      cases before with
      | nil =>
        obtain ⟨rfl, -⟩ := List.cons.inj heq
        exact htells
      | cons first before =>
        obtain ⟨rfl, hsplit⟩ := List.cons.inj heq
        exact hlater before done' after hsplit
    · have hne : ∀ entry ∈ output, entry.1 ≠ some i := by
        intro entry hentry hfirst
        refine hactor ⟨entry.2, ?_⟩
        rw [Option.mem_def.mp hentry, ← hfirst]
      have hskip : ownEffects i (output.toList ++ later) = ownEffects i later := by
        cases output with
        | none => rfl
        | some entry => simp [ownEffects, hne entry rfl]
      rw [hskip]
      exact ih (h.moves_of_ne hmoves hne) hrest

end Networks

end NetfabricBgp.Speakers
