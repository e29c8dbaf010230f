import NetfabricBgp.Flows

/-!
How a prefix spreads along a link. A process that learns of a prefix has a change to tell. While
nothing is lost and nobody withdraws the prefix, what it tells is on its way until the neighbour
knows the prefix too, and one cycle of the neighbour takes everything that waits for it.
-/
namespace NetfabricBgp.Spreads

open Addresses Routes RouterMasks Ribs RibInterfaces Advertisements KeyedLog BoundedQueues Channels
  Interfaces Sessions Processes Supplies LinkThreads ClientTables ProcessThreads ThreadSteps
  ThreadHistories Speakers Flows

/-- The advertisement announces the prefix. -/
def Announces (forms : TextForms) (network : IpNetwork) (ad : Advertisement) : Prop :=
  ∃ route ∈ ad.getAnnouncements forms, route.pfx = network

def Withdraws (forms : TextForms) (network : IpNetwork) (ad : Advertisement) : Prop :=
  ∃ route ∈ ad.getWithdrawals forms, route.pfx = network

/-- The speaker has a route for the prefix. -/
def Knows (network : IpNetwork) (speaker : Speaker) : Prop := routesAt speaker.table network ≠ []

/-- The speaker has a new best route for the prefix to tell. -/
def Owes (network : IpNetwork) (speaker : Speaker) : Prop :=
  ∃ best ∈ speaker.pending.1, best.route.pfx = network

section Learning
variable {forms : TextForms} {network : IpNetwork} {ad : Advertisement} {speaker : Speaker}

theorem knows_iff : Knows network speaker ↔ ∃ route ∈ speaker.table, route.pfx = network := by
  unfold Knows
  rw [ne_eq, List.eq_nil_iff_forall_not_mem]
  push Not
  exact exists_congr (fun route => mem_routesAt)

/-- What a log adds at a prefix that it does not retract. -/
theorem exists_foldl_iff {log : List (Entry Route)} {table : List Route}
    (hkept : ∀ w, Entry.retract w ∈ log → w.pfx ≠ network) :
    (∃ route ∈ log.foldl (next Route.key) table, route.pfx = network) ↔
      (∃ route ∈ table, route.pfx = network) ∨
        ∃ route, Entry.add route ∈ log ∧ route.pfx = network := by
  have hkeys : ∀ route : Route, route.pfx = network → ∀ w, Entry.retract w ∈ log →
      Route.key w ≠ Route.key route := by
    intro route hroute w hw hkey
    exact hkept w hw ((congrArg Prod.snd hkey).trans hroute)
  constructor
  · intro h
    obtain ⟨route, hmem, hroute⟩ := h
    rcases (mem_foldl_next_iff Route.key).mp hmem with hlive | ⟨htable, -⟩
    · exact Or.inr ⟨route, add_mem_of_live Route.key hlive, hroute⟩
    · exact Or.inl ⟨route, htable, hroute⟩
  · intro h
    rcases h with ⟨route, htable, hroute⟩ | ⟨route, hadd, hroute⟩
    · have hkept := (mem_foldl_next_iff Route.key).mpr (Or.inr ⟨htable, hkeys route hroute⟩)
      exact ⟨route, hkept, hroute⟩
    · have hlive := live_of_not_retracted Route.key hadd (hkeys route hroute)
      exact ⟨route, (mem_foldl_next_iff Route.key).mpr (Or.inl hlive), hroute⟩

/-- The first route at a prefix is always reported. The induction is on the log, up to the
addition that finds no route there. -/
theorem exists_reported {log : List (Entry Route)} {table : List Route}
    (hkept : ∀ w, Entry.retract w ∈ log → w.pfx ≠ network) (hnone : routesAt table network = [])
    (hadd : ∃ route, Entry.add route ∈ log ∧ route.pfx = network) :
    ∃ best, Entry.add best ∈ Runs.outputs (next Route.key) report table log ∧
      best.route.pfx = network := by
  induction log generalizing table with
  | nil =>
    obtain ⟨route, hmem, -⟩ := hadd
    exact absurd hmem List.not_mem_nil
  | cons entry rest ih =>
    have hrest : ∀ w, Entry.retract w ∈ rest → w.pfx ≠ network :=
      fun w hw => hkept w (List.mem_cons_of_mem _ hw)
    have hlater : ∀ table', routesAt table' network = [] →
        (∃ route, Entry.add route ∈ rest ∧ route.pfx = network) →
        ∀ out : List (Entry BestRoute), ∃ best,
          Entry.add best ∈ out ++ Runs.outputs (next Route.key) report table' rest ∧
            best.route.pfx = network := by
      intro table' hnone' hadd' out
      obtain ⟨best, hbest, hpfx⟩ := ih hrest hnone' hadd'
      exact ⟨best, List.mem_append_right _ hbest, hpfx⟩
    rw [Runs.outputs_cons]
    obtain ⟨route, hmem, hroute⟩ := hadd
    cases entry with
    | retract w =>
      have hne : network ≠ w.pfx := (hkept w List.mem_cons_self).symm
      refine hlater _ ?_ ⟨route, ?_, hroute⟩ _
      · rw [routesAt_retract_of_ne hne, hnone]
      · rcases List.mem_cons.mp hmem with heq | hmem
        · cases heq
        · exact hmem
    | add first =>
      by_cases hfirst : first.pfx = network
      · have hunbeaten : Unbeaten table first := by
          intro x hx
          rw [hfirst, hnone] at hx
          exact absurd hx List.not_mem_nil
        refine ⟨.ofRoute first, List.mem_append_left _ ?_, hfirst⟩
        simp [report, hunbeaten]
      · refine hlater _ ?_ ⟨route, ?_, hroute⟩ _
        · rw [routesAt_add_of_ne (Ne.symm hfirst), hnone]
        · rcases List.mem_cons.mp hmem with heq | hmem
          · rw [Entry.add.inj heq] at hroute
            exact absurd hroute hfirst
          · exact hmem

theorem retract_mem_entries {w : Route} :
    Entry.retract w ∈ ad.entries forms ↔ w ∈ ad.getWithdrawals forms := by
  simp [Advertisement.entries]

theorem add_mem_entries {route : Route} :
    Entry.add route ∈ ad.entries forms ↔ route ∈ ad.getAnnouncements forms := by
  simp [Advertisement.entries]

theorem knows_hear (hkept : ¬ Withdraws forms network ad) :
    Knows network (speaker.hear forms ad) ↔ Knows network speaker ∨ Announces forms network ad := by
  rw [knows_iff, knows_iff]
  refine (exists_foldl_iff ?_).trans ?_
  · intro w hw hpfx
    exact hkept ⟨w, retract_mem_entries.mp hw, hpfx⟩
  · simp only [add_mem_entries, Announces]

theorem owes_hear_of_owes (h : Owes network speaker) : Owes network (speaker.hear forms ad) := by
  obtain ⟨best, hbest, hpfx⟩ := h
  exact ⟨best, List.mem_append_left _ hbest, hpfx⟩

/-- Who learns of a prefix has it to tell. -/
theorem owes_of_learns (hkept : ¬ Withdraws forms network ad) (hnew : ¬ Knows network speaker)
    (hknows : Knows network (speaker.hear forms ad)) : Owes network (speaker.hear forms ad) := by
  have hnone : routesAt speaker.table network = [] := not_not.mp hnew
  obtain ⟨route, hroute, hpfx⟩ := ((knows_hear hkept).mp hknows).resolve_left hnew
  obtain ⟨best, hbest, hbestPfx⟩ := @exists_reported network (ad.entries forms) speaker.table
    (fun w hw hw' => hkept ⟨w, retract_mem_entries.mp hw, hw'⟩) hnone
    ⟨route, add_mem_entries.mpr hroute, hpfx⟩
  exact ⟨best, List.mem_append_right _ (mem_added.mpr hbest), hbestPfx⟩

/-- What a process tells can be read by its neighbours. -/
structure Legible (forms : TextForms) (network : IpNetwork) (setting : Setting) : Prop where
  pfx : forms.fromStrTruncate (forms.networkToString network) = some network
  peer : (forms.parse (forms.addrToString setting.config.ip)).isSome = true

theorem announces_advertisementOf {setting : Setting} {timestamp : UInt64}
    (hlegible : Legible forms network setting) (howes : Owes network speaker) :
    Announces forms network (advertisementOf forms setting timestamp speaker.pending) := by
  obtain ⟨best, hbest, rfl⟩ := howes
  obtain ⟨peer, hpeer⟩ := Option.isSome_iff_exists.mp hlegible.peer
  refine ⟨⟨peer, best.route.pfx, best.route.nextHop, []⟩, ?_, rfl⟩
  refine (Advertisement.mem_getAnnouncements_iff forms).mpr ?_
  refine ⟨⟨best.route.nextHop, [forms.networkToString best.route.pfx]⟩, ?_,
    forms.networkToString best.route.pfx, List.mem_singleton_self _, ?_⟩
  · simp only [advertisementOf, Option.getD_some]
    exact List.mem_map.mpr ⟨best, hbest, rfl⟩
  · rw [Advertisement.route_of_parse_peer forms hpeer, hlegible.pfx]
    rfl

end Learning

/-- Some advertisement of the list announces the prefix. -/
def Told (forms : TextForms) (network : IpNetwork) (ads : List Advertisement) : Prop :=
  ∃ ad ∈ ads, Announces forms network ad

theorem told_mono {forms : TextForms} {network : IpNetwork} {ads ads' : List Advertisement}
    (h : Told forms network ads) (hsub : ads ⊆ ads') : Told forms network ads' := by
  obtain ⟨ad, hmem, had⟩ := h
  exact ⟨ad, hsub hmem, had⟩

theorem not_told_nil {forms : TextForms} {network : IpNetwork} : ¬ Told forms network [] := by
  intro h
  obtain ⟨ad, hmem, -⟩ := h
  exact absurd hmem List.not_mem_nil

/-- The session `n` has not finished receiving. -/
def Ahead (n : ℕ) : Stage → Prop
  | .receive k => k ≤ n
  | .receiving k => k ≤ n
  | _ => False

/-- The session `m` has not begun to send. -/
def Unpushed (m : ℕ) : Stage → Prop
  | .send k => k ≤ m
  | .sending k _ => k < m
  | _ => False

/-- What the interface of a session has received. -/
def incomingAt (thread : Thread) (n : ℕ) : List Advertisement :=
  (thread.interfaceAt n).elim [] (·.incomingAdvertisements.items)

section Places
variable (forms : TextForms) (network : IpNetwork)

/-- The prefix is known, or sure to be soon. -/
def Taken (self : Thread) (speaker : Speaker) : Prop :=
  Knows network speaker ∨ (Hearing self.stage ∧ Told forms network self.received) ∨
    ∃ rest, self.stage = .update rest ∧ Told forms network rest

/-- An announcement waits on the channel, or in the interface of the session. -/
def Waiting (shared : Shared) (self : Thread) (n : ℕ) (c : ChannelId) : Prop :=
  (∃ ad, .advertisement ad ∈ (shared.links c).queue.items ∧ Announces forms network ad) ∨
    Told forms network (incomingAt self n)

/-- There is an announcement that the session `m` has still to put on its channel. -/
def Unsent (self : Thread) (m : ℕ) : Prop :=
  (Unpushed m self.stage ∧ Told forms network self.process.advertisement) ∨
    ∃ rest, self.stage = .sending m rest ∧ Told forms network rest

/-- There is a change to tell, and it is not too late for this cycle. -/
def Untold (self : Thread) (speaker : Speaker) : Prop :=
  Owes network speaker ∧ (self.stage = .publish ∨ ∃ rest, self.stage = .update rest)

/-- The effect loses nothing, and withdraws nothing at the prefix. -/
def Harmless : Effect → Prop
  | .discard _ _ => False
  | .refuse _ _ => False
  | .apply _ _ ad => ¬ Withdraws forms network ad
  | _ => True

instance (effect : Effect) : Decidable (Harmless forms network effect) :=
  match effect with
  | .apply _ _ ad => inferInstanceAs (Decidable (¬ ∃ route ∈ ad.getWithdrawals forms,
      route.pfx = network))
  | .discard _ _ => .isFalse not_false
  | .refuse _ _ => .isFalse not_false
  | .take _ _ => .isTrue trivial
  | .skip _ => .isTrue trivial
  | .publish _ => .isTrue trivial
  | .put _ _ => .isTrue trivial

/-- The session reads this channel, no other session does, and its filter lets announcements
through. -/
structure ReadsAt (thread : Thread) (n : ℕ) (c : ChannelId) : Prop where
  port : ∃ interface, thread.interfaceAt n = some interface ∧ interface.inChannel = some c ∧
    ∀ ad, Announces forms network ad → interface.inFilter ad = (true, ad)
  only : ∀ k interface, thread.interfaceAt k = some interface → interface.inChannel = some c →
    k = n

/-- The session writes to this channel, and its filter lets announcements through. -/
def WritesAt (thread : Thread) (m : ℕ) (c : ChannelId) : Prop :=
  ∃ interface, thread.interfaceAt m = some interface ∧ interface.outChannel = some c ∧
    ∀ ad, Announces forms network ad → interface.outFilter ad = (true, ad)

end Places

section Receivers
variable {forms : TextForms} {network : IpNetwork} {instant : Instant} {shared shared' : Shared}
  {self self' : Thread} {effect : Option Effect} {speaker : Speaker} {n : ℕ} {c : ChannelId}

theorem incomingAt_setInterface {k : ℕ} {interface interface' : Interface}
    (hat : self.interfaceAt k = some interface) (n : ℕ) :
    incomingAt (self.setInterface k interface') n =
      if n = k then interface'.incomingAdvertisements.items else incomingAt self n := by
  unfold incomingAt
  rw [interfaceAt_setInterface]
  by_cases hn : n = k
  · rw [if_pos ⟨hn, lt_length_of_interfaceAt hat⟩, if_pos hn]
    rfl
  · rw [if_neg (fun h => hn h.1), if_neg hn]

/-- A new interface that has received the same. -/
theorem incomingAt_same {k : ℕ} {interface interface' : Interface}
    (hat : self.interfaceAt k = some interface)
    (hsame : interface'.incomingAdvertisements = interface.incomingAdvertisements) (n : ℕ) :
    incomingAt (self.setInterface k interface') n = incomingAt self n := by
  rw [incomingAt_setInterface hat]
  by_cases hn : n = k
  · rw [if_pos hn, hsame, hn, incomingAt, hat]
    rfl
  · rw [if_neg hn]

theorem pushed_incoming (self : Thread) (interface : Interface) :
    (pushed self interface).incomingAdvertisements = interface.incomingAdvertisements := by
  unfold pushed
  by_cases hnone : interface.outChannel.isNone = true
  · rw [Interface.pushOutgoingAdvertisements_of_none hnone]
  · rw [Interface.pushOutgoingAdvertisements_of_some hnone]

/-- The speaker after a step. -/
def heard (forms : TextForms) (speaker : Speaker) (effect : Option Effect) : Speaker :=
  effect.elim speaker (speaker.after forms)

/-- Only an update changes what a speaker knows, and it forgets nothing here. -/
theorem knows_heard (hharmless : ∀ done ∈ effect, Harmless forms network done)
    (h : Knows network speaker) : Knows network (heard forms speaker effect) := by
  cases effect with
  | none => exact h
  | some done =>
    cases done with
    | apply rib client ad => exact (knows_hear (hharmless _ rfl)).mpr (Or.inl h)
    | _ => exact h

/-- Past the updates there is nothing left but to know. -/
theorem Taken.knows (h : Taken forms network self speaker) (hhearing : ¬ Hearing self.stage)
    (hupdate : ∀ rest, self.stage ≠ .update rest) : Knows network speaker := by
  rcases h with h | ⟨hstage, -⟩ | ⟨rest, hstage, -⟩
  · exact h
  · exact absurd hstage hhearing
  · exact absurd hstage (hupdate rest)

/-- What is taken from the channel is not lost again. -/
theorem Taken.steps (h : Taken forms network self speaker) (hlock : instant.lock = .acquired)
    (hsteps : Steps forms instant shared self shared' self' effect)
    (hharmless : ∀ done ∈ effect, Harmless forms network done) :
    Taken forms network self' (heard forms speaker effect) := by
  have hstays : Hearing self.stage → Hearing self'.stage → self.received ⊆ self'.received →
      Taken forms network self' (heard forms speaker effect) := by
    intro hhearing hhearing' hreceived
    rcases h with h | ⟨-, htold⟩ | ⟨rest, hstage, -⟩
    · exact Or.inl (knows_heard hharmless h)
    · exact Or.inr (Or.inl ⟨hhearing', told_mono htold hreceived⟩)
    · rw [hstage] at hhearing
      exact hhearing.elim
  have hpast : ¬ Hearing self.stage → (∀ rest, self.stage ≠ .update rest) →
      Taken forms network self' (heard forms speaker effect) :=
    fun hhearing hupdate => Or.inl (knows_heard hharmless (h.knows hhearing hupdate))
  cases hsteps with
  | receiveUnset n hstage hat hlt =>
    refine hstays ?_ trivial (List.Subset.refl _)
    rcases hstage with hstage | hstage <;> rw [hstage] <;> trivial
  | receiveTimedOut n interface hstage hat hin htimed =>
    rw [hlock] at htimed
    cases htimed
  | receiveBegin n interface hstage hat hin hacquired =>
    exact hstays (hstage ▸ trivial) trivial (List.Subset.refl _)
  | receiveDone n hstage hlen =>
    rcases h with h | ⟨-, htold⟩ | ⟨rest, hupdate, -⟩
    · exact Or.inl h
    · exact Or.inr (Or.inr ⟨self.received, rfl, htold⟩)
    · rw [hstage] at hupdate
      cases hupdate
  | collect n interface hstage hat hnothing =>
    refine hstays ?_ trivial (List.subset_append_left _ _)
    rcases hstage with hstage | hstage <;> rw [hstage] <;> trivial
  | take n interface interface' id message rest hstage hat hin hqueue htake =>
    exact hstays (hstage ▸ trivial) trivial (List.Subset.refl _)
  | discardForeign n interface id message rest hstage hat hin hqueue hcast =>
    exact (hharmless _ rfl).elim
  | discardFull n interface id ad rest hstage hat hin hqueue hkeep hfull =>
    exact (hharmless _ rfl).elim
  | updateDone hstage =>
    rcases h with h | ⟨hhearing, -⟩ | ⟨rest, hupdate, htold⟩
    · exact Or.inl h
    · rw [hstage] at hhearing
      exact hhearing.elim
    · obtain rfl := Stage.update.inj (hstage.symm.trans hupdate)
      exact absurd htold not_told_nil
  | skip ad rest hstage htimed =>
    rw [hlock] at htimed
    cases htimed
  | apply ad rest rib ribInterface hstage hacquired hupdate =>
    rcases h with h | ⟨hhearing, -⟩ | ⟨rest', hupdate', htold⟩
    · exact Or.inl (knows_heard hharmless h)
    · rw [hstage] at hhearing
      exact hhearing.elim
    · obtain rfl := Stage.update.inj (hstage.symm.trans hupdate')
      obtain ⟨first, hmem, hannounces⟩ := htold
      rcases List.mem_cons.mp hmem with rfl | hmem
      · exact Or.inl ((knows_hear (hharmless _ rfl)).mpr (Or.inr hannounces))
      · exact Or.inr (Or.inr ⟨rest, rfl, first, hmem, hannounces⟩)
  | publish hstage => exact hpast (by rw [hstage]; exact not_false) (by simp [hstage])
  | sendUnset n hstage hat hlt => exact hpast (by rw [hstage]; exact not_false) (by simp [hstage])
  | sendNothing n interface hstage hat hnothing =>
    exact hpast (by rw [hstage]; exact not_false) (by simp [hstage])
  | sendBegin n interface hstage hat hout =>
    exact hpast (by rw [hstage]; exact not_false) (by simp [hstage])
  | sendDone n hstage hlen => exact hpast (by rw [hstage]; exact not_false) (by simp [hstage])
  | sendingDone n rest hstage hrest =>
    exact hpast (by rw [hstage]; exact not_false) (by simp [hstage])
  | filterOut n interface ad rest hstage hat hkeep =>
    exact hpast (by rw [hstage]; exact not_false) (by simp [hstage])
  | put n interface ad rest id channel hstage hat hout hkeep hsend =>
    exact hpast (by rw [hstage]; exact not_false) (by simp [hstage])
  | refuse n interface ad rest id e hstage hat hout hkeep hsend => exact (hharmless _ rfl).elim

/-- Putting something on a channel takes nothing from any. -/
theorem queue_setLink {id : ChannelId} {message : Message} {channel : Channel}
    (hsend : (shared.links id).trySend message = .ok channel) {other : Message}
    (hmem : other ∈ (shared.links c).queue.items) :
    other ∈ ((Shared.setLink shared id channel).links c).queue.items := by
  by_cases hid : c = id
  · subst hid
    simp only [Shared.setLink, Function.update_self, Channel.items_of_trySend hsend]
    exact List.mem_append_left _ hmem
  · simp only [Shared.setLink, Function.update_of_ne hid]
    exact hmem

/-- A message that is taken by another session is not one that waits here. One that is taken by
this session is in its interface then. -/
theorem Waiting.take {k : ℕ} {interface interface' : Interface} {id : ChannelId}
    {message : Message} {rest : List Message} {stage : Stage}
    (h : Waiting forms network shared self n c) (hreads : ReadsAt forms network self n c)
    (hat : self.interfaceAt k = some interface) (hin : interface.inChannel = some id)
    (hqueue : (shared.links id).queue.items = message :: rest)
    (htake : Endpoint.take interface message = ⟨interface', .receiving⟩) :
    Waiting forms network (Shared.pop shared id) ((self.setInterface k interface').atStage stage) n
      c := by
  obtain ⟨own, hown, hownIn, hpass⟩ := hreads.port
  obtain ⟨ad, rfl, hcases⟩ := take_eq_receiving htake
  have hafter : incomingAt ((self.setInterface k interface').atStage stage) n =
      if n = k then interface'.incomingAdvertisements.items else incomingAt self n :=
    incomingAt_setInterface hat n
  have hitems := pop_items ⟨rest, hqueue⟩ c
  by_cases hk : n = k
  · subst hk
    obtain rfl := Option.some.inj (hown.symm.trans hat)
    obtain rfl := Option.some.inj (hownIn.symm.trans hin)
    rw [if_pos rfl] at hafter
    rw [hqueue, if_pos rfl, List.singleton_append] at hitems
    rcases h with ⟨first, hmem, hannounces⟩ | htold
    · rw [hqueue] at hmem
      rcases List.mem_cons.mp hmem with heq | hmem
      · obtain rfl := Message.advertisement.inj heq
        right
        rw [hafter]
        rcases hcases with ⟨hkeep, hroom, rfl⟩ | ⟨hkeep, rfl⟩
        · refine ⟨first, List.mem_append_right _ (List.mem_singleton.mpr ?_), hannounces⟩
          rw [hpass first hannounces]
        · rw [hpass first hannounces] at hkeep
          cases hkeep
      · rw [(List.cons.inj hitems).2] at hmem
        exact Or.inl ⟨first, hmem, hannounces⟩
    · right
      rw [hafter]
      rw [incomingAt, hown] at htold
      rcases hcases with ⟨-, hroom, rfl⟩ | ⟨-, rfl⟩
      · exact told_mono htold (List.subset_append_left _ _)
      · exact htold
  · have hid : id ≠ c := by
      rintro rfl
      exact hk (hreads.only k interface hat hin).symm
    rw [if_neg hk] at hafter
    rw [if_neg hid, List.nil_append] at hitems
    rcases h with ⟨first, hmem, hannounces⟩ | htold
    · rw [hitems] at hmem
      exact Or.inl ⟨first, hmem, hannounces⟩
    · right
      rwa [hafter]

/-- What waits for the session is taken by it, or still waits and is not missed. -/
theorem Waiting.steps (h : Waiting forms network shared self n c)
    (hreads : ReadsAt forms network self n c) (hlock : instant.lock = .acquired)
    (hsteps : Steps forms instant shared self shared' self' effect)
    (hharmless : ∀ done ∈ effect, Harmless forms network done) :
    Taken forms network self' (heard forms speaker effect) ∨
      (Waiting forms network shared' self' n c ∧ (Ahead n self.stage → Ahead n self'.stage)) := by
  obtain ⟨own, hown, hin, hpass⟩ := hreads.port
  have hincoming : incomingAt self n = own.incomingAdvertisements.items := by
    rw [incomingAt, hown]
    rfl
  -- Past the receiving stages, a step leaves everything where it waits.
  have hstill : (∀ k, self.stage ≠ .receive k) → (∀ k, self.stage ≠ .receiving k) →
      Ahead n self.stage → Ahead n self'.stage := by
    intro hreceive hreceiving hahead
    cases hstage : self.stage with
    | receive k => exact absurd hstage (hreceive k)
    | receiving k => exact absurd hstage (hreceiving k)
    | _ =>
      rw [hstage] at hahead
      exact hahead.elim
  cases hsteps with
  | receiveUnset k hstage hat hlt =>
    refine Or.inr ⟨h, ?_⟩
    intro hahead
    have hle : k ≤ n := by
      rcases hstage with hstage | hstage <;> rw [hstage] at hahead <;> exact hahead
    have hne : k ≠ n := by
      rintro rfl
      rw [hown] at hat
      cases hat
    exact Nat.succ_le_of_lt (Nat.lt_of_le_of_ne hle hne)
  | receiveTimedOut k interface hstage hat hin' htimed =>
    rw [hlock] at htimed
    cases htimed
  | receiveBegin k interface hstage hat hin' hacquired =>
    refine Or.inr ⟨h, ?_⟩
    rw [hstage]
    exact id
  | receiveDone k hstage hlen =>
    refine Or.inr ⟨h, ?_⟩
    rw [hstage]
    intro hahead
    have hlt := lt_length_of_interfaceAt hown
    exact absurd (Nat.le_trans hlen hahead) (by omega)
  | collect k interface hstage hat hnothing =>
    by_cases hk : n = k
    · subst hk
      obtain rfl := Option.some.inj (hown.symm.trans hat)
      obtain ⟨-, hqueue⟩ := hnothing c hin
      left
      rcases h with ⟨ad, hmem, -⟩ | htold
      · rw [hqueue] at hmem
        exact absurd hmem List.not_mem_nil
      · rw [hincoming] at htold
        exact Or.inr (Or.inl ⟨trivial, told_mono htold (List.subset_append_right _ _)⟩)
    · right
      refine ⟨?_, ?_⟩
      · rcases h with hqueue | htold
        · exact Or.inl hqueue
        · right
          show Told forms network (incomingAt (self.setInterface k _) n)
          rwa [incomingAt_setInterface hat, if_neg hk]
      · intro hahead
        have hle : k ≤ n := by
          rcases hstage with hstage | hstage <;> rw [hstage] at hahead <;> exact hahead
        exact Nat.succ_le_of_lt (Nat.lt_of_le_of_ne hle (fun heq => hk heq.symm))
  | take k interface interface' id message rest hstage hat hin' hqueue htake =>
    exact Or.inr ⟨h.take hreads hat hin' hqueue htake, by rw [hstage]; exact fun hahead => hahead⟩
  | discardForeign k interface id message rest hstage hat hin' hqueue hcast =>
    exact (hharmless _ rfl).elim
  | discardFull k interface id ad rest hstage hat hin' hqueue hkeep hfull =>
    exact (hharmless _ rfl).elim
  | skip ad rest hstage htimed =>
    rw [hlock] at htimed
    cases htimed
  | updateDone hstage => exact Or.inr ⟨h, hstill (by simp [hstage]) (by simp [hstage])⟩
  | apply ad rest rib ribInterface hstage hacquired hupdate =>
    exact Or.inr ⟨h, hstill (by simp [hstage]) (by simp [hstage])⟩
  | publish hstage => exact Or.inr ⟨h, hstill (by simp [hstage]) (by simp [hstage])⟩
  | sendUnset k hstage hat hlt => exact Or.inr ⟨h, hstill (by simp [hstage]) (by simp [hstage])⟩
  | sendNothing k interface hstage hat hnothing =>
    have hsame := pushed_incoming self interface
    exact Or.inr ⟨h.imp id (fun htold => (incomingAt_same hat hsame n).symm ▸ htold),
      hstill (by simp [hstage]) (by simp [hstage])⟩
  | sendBegin k interface hstage hat hout =>
    have hsame : (emptied (pushed self interface)).incomingAdvertisements =
        interface.incomingAdvertisements := pushed_incoming self interface
    exact Or.inr ⟨h.imp id (fun htold => (incomingAt_same hat hsame n).symm ▸ htold),
      hstill (by simp [hstage]) (by simp [hstage])⟩
  | sendDone k hstage hlen => exact Or.inr ⟨h, hstill (by simp [hstage]) (by simp [hstage])⟩
  | sendingDone k rest hstage hrest =>
    exact Or.inr ⟨h, hstill (by simp [hstage]) (by simp [hstage])⟩
  | filterOut k interface ad rest hstage hat hkeep =>
    exact Or.inr ⟨h, hstill (by simp [hstage]) (by simp [hstage])⟩
  | put k interface ad rest id channel hstage hat hout hkeep hsend =>
    refine Or.inr ⟨?_, hstill (by simp [hstage]) (by simp [hstage])⟩
    rcases h with ⟨first, hmem, hannounces⟩ | htold
    · refine Or.inl ⟨first, ?_, hannounces⟩
      exact queue_setLink hsend hmem
    · exact Or.inr htold
  | refuse k interface ad rest id e hstage hat hout hkeep hsend => exact (hharmless _ rfl).elim

end Receivers

/-- The sessions are sending. -/
def Sending : Stage → Prop
  | .send _ => True
  | .sending _ _ => True
  | _ => False

/-- Nothing is left in an interface from earlier cycles, and it has room. -/
def Ready (interface : Interface) : Prop :=
  interface.outgoingAdvertisements.items = [] ∧ 0 < interface.outgoingAdvertisements.capacity ∧
    0 < interface.bufferSizeOutgoing

/-- A process makes one advertisement in a cycle, and keeps none for the next. -/
structure Tidy (thread : Thread) : Prop where
  interfaces : ∀ n interface, thread.interfaceAt n = some interface → Ready interface
  advertisement : thread.process.advertisement.length ≤ 1 ∧
    (¬ Sending thread.stage → thread.process.advertisement = [])

section Senders
variable {forms : TextForms} {network : IpNetwork} {instant : Instant} {shared shared' : Shared}
  {self self' : Thread} {effect : Option Effect} {speaker : Speaker} {m : ℕ} {c : ChannelId}

theorem Tidy.atStage (h : Tidy self) {stage : Stage} (hstage : Sending self.stage → Sending stage) :
    Tidy (self.atStage stage) :=
  ⟨h.interfaces, h.advertisement.1, fun hnot => h.advertisement.2 (fun hs => hnot (hstage hs))⟩

theorem Tidy.setInterface (h : Tidy self) {k : ℕ} {interface : Interface}
    (hready : Ready interface) : Tidy (self.setInterface k interface) :=
  ⟨forall_interfaceAt_setInterface hready h.interfaces, h.advertisement⟩

/-- What is pushed into an interface that is ready is in its buffer. -/
theorem pushed_items (h : Tidy self) {interface : Interface} (hready : Ready interface)
    (hout : interface.outChannel ≠ none) :
    (pushed self interface).outgoingAdvertisements.items = self.process.advertisement := by
  obtain ⟨hempty, hroom, -⟩ := hready
  have hsome : ¬ interface.outChannel.isNone = true := by
    rw [Option.isNone_iff_eq_none]
    exact hout
  have hlength : self.process.advertisement.length ≤ interface.outgoingAdvertisements.room := by
    unfold Bounded.room
    rw [hempty, List.length_nil]
    have hone := h.advertisement.1
    omega
  unfold pushed
  rw [Interface.pushOutgoingAdvertisements_of_some hsome]
  simp only [Bounded.extend, hempty, List.nil_append, List.take_of_length_le hlength]

theorem ready_pushed {interface : Interface} (hready : Ready interface)
    (hnothing : (pushed self interface).outgoingAdvertisements.items = [] ∨
      interface.outChannel = none) : Ready (pushed self interface) := by
  by_cases hnone : interface.outChannel.isNone = true
  · unfold pushed
    rw [Interface.pushOutgoingAdvertisements_of_none hnone]
    exact hready
  · have hempty := hnothing.resolve_right (fun h => hnone (by rw [h]; rfl))
    refine ⟨hempty, ?_, ?_⟩
    · unfold pushed
      rw [Interface.pushOutgoingAdvertisements_of_some hnone]
      exact hready.2.1
    · unfold pushed
      rw [Interface.pushOutgoingAdvertisements_of_some hnone]
      exact hready.2.2

theorem ready_emptied {interface : Interface} (hready : Ready interface) :
    Ready (emptied (pushed self interface)) := by
  have hsize : (pushed self interface).bufferSizeOutgoing = interface.bufferSizeOutgoing := by
    unfold pushed
    by_cases hnone : interface.outChannel.isNone = true
    · rw [Interface.pushOutgoingAdvertisements_of_none hnone]
    · rw [Interface.pushOutgoingAdvertisements_of_some hnone]
  refine ⟨rfl, ?_, ?_⟩
  · show 0 < (pushed self interface).bufferSizeOutgoing
    rw [hsize]
    exact hready.2.2
  · show 0 < (pushed self interface).bufferSizeOutgoing
    rw [hsize]
    exact hready.2.2

/-- Every step leaves a process tidy. -/
theorem Tidy.steps (h : Tidy self) (hsteps : Steps forms instant shared self shared' self' effect) :
    Tidy self' := by
  cases hsteps with
  | receiveUnset n hstage hat hlt =>
    refine h.atStage (fun hs => ?_)
    rcases hstage with hstage | hstage <;> rw [hstage] at hs <;> exact hs.elim
  | receiveTimedOut n interface hstage hat hin hlock =>
    exact h.atStage (fun hs => by rw [hstage] at hs; exact hs.elim)
  | receiveBegin n interface hstage hat hin hlock =>
    exact h.atStage (fun hs => by rw [hstage] at hs; exact hs.elim)
  | receiveDone n hstage hlen =>
    refine ⟨h.interfaces, h.advertisement.1, fun _ => h.advertisement.2 (fun hs => ?_)⟩
    rw [hstage] at hs
    exact hs
  | collect n interface hstage hat hnothing =>
    refine ⟨forall_interfaceAt_setInterface (h.interfaces n interface hat) h.interfaces,
      h.advertisement.1, fun _ => h.advertisement.2 (fun hs => ?_)⟩
    rcases hstage with hstage | hstage <;> rw [hstage] at hs <;> exact hs
  | take n interface interface' id message rest hstage hat hin hqueue htake =>
    have hready : Ready interface' := by
      obtain ⟨ad, -, ⟨-, hroom, rfl⟩ | ⟨-, rfl⟩⟩ := take_eq_receiving htake
      · exact h.interfaces n interface hat
      · exact h.interfaces n _ hat
    exact (h.setInterface hready).atStage (fun hs => by
      have hnot : Sending self.stage := hs
      rw [hstage] at hnot
      exact hnot.elim)
  | discardForeign n interface id message rest hstage hat hin hqueue hcast =>
    exact (h.setInterface (h.interfaces n interface hat)).atStage (fun hs => by
      have hnot : Sending self.stage := hs
      rw [hstage] at hnot
      exact hnot.elim)
  | discardFull n interface id ad rest hstage hat hin hqueue hkeep hfull =>
    refine ⟨forall_interfaceAt_setInterface (h.interfaces n interface hat) h.interfaces,
      h.advertisement.1, fun _ => h.advertisement.2 (fun hs => ?_)⟩
    rw [hstage] at hs
    exact hs
  | updateDone hstage => exact h.atStage (fun hs => by rw [hstage] at hs; exact hs.elim)
  | skip ad rest hstage hlock => exact h.atStage (fun hs => by rw [hstage] at hs; exact hs.elim)
  | apply ad rest rib ribInterface hstage hlock hupdate =>
    refine ⟨h.interfaces, h.advertisement.1, fun _ => h.advertisement.2 (fun hs => ?_)⟩
    rw [hstage] at hs
    exact hs
  | publish hstage =>
    have hnone := h.advertisement.2 (by rw [hstage]; exact not_false)
    refine ⟨h.interfaces, ?_, fun hnot => absurd trivial hnot⟩
    show (self.process.advertisement ++ [_]).length ≤ 1
    rw [hnone]
    exact Nat.le_refl 1
  | sendUnset n hstage hat hlt => exact h.atStage (fun _ => trivial)
  | sendNothing n interface hstage hat hnothing =>
    have hready := ready_pushed (h.interfaces n interface hat) hnothing
    exact (h.setInterface hready).atStage (fun _ => trivial)
  | sendBegin n interface hstage hat hout =>
    exact (h.setInterface (ready_emptied (h.interfaces n interface hat))).atStage (fun _ => trivial)
  | sendDone n hstage hlen => exact ⟨h.interfaces, Nat.zero_le 1, fun _ => rfl⟩
  | sendingDone n rest hstage hrest => exact h.atStage (fun _ => trivial)
  | filterOut n interface ad rest hstage hat hkeep => exact h.atStage (fun _ => trivial)
  | put n interface ad rest id channel hstage hat hout hkeep hsend =>
    exact h.atStage (fun _ => trivial)
  | refuse n interface ad rest id e hstage hat hout hkeep hsend =>
    exact h.atStage (fun _ => trivial)

/-- Who knows a prefix after a step knew it before, or has it to tell. -/
theorem knows_steps (hsteps : Steps forms instant shared self shared' self' effect)
    (hharmless : ∀ done ∈ effect, Harmless forms network done)
    (hknows : Knows network (heard forms speaker effect)) :
    Knows network speaker ∨ Untold network self' (heard forms speaker effect) := by
  by_cases hbefore : Knows network speaker
  · exact Or.inl hbefore
  · right
    cases hsteps with
    | apply ad rest rib ribInterface hstage hlock hupdate =>
      exact ⟨owes_of_learns (hharmless _ rfl) hbefore hknows, Or.inr ⟨rest, rfl⟩⟩
    | _ => exact absurd hknows hbefore

/-- What is to be told is told in the advertisement of the cycle. -/
theorem Untold.steps (h : Untold network self speaker) (hspeaks : Speaks shared self speaker)
    (hlegible : Legible forms network (settingOf self))
    (hsteps : Steps forms instant shared self shared' self' effect) :
    Untold network self' (heard forms speaker effect) ∨ Unsent forms network self' m := by
  obtain ⟨howes, hstages⟩ := h
  have hnone : self.stage ≠ .publish → (∀ rest, self.stage ≠ .update rest) → False := by
    intro hpublish hupdate
    rcases hstages with hstage | ⟨rest, hstage⟩
    · exact hpublish hstage
    · exact hupdate rest hstage
  cases hsteps with
  | updateDone hstage => exact Or.inl ⟨howes, Or.inl rfl⟩
  | skip ad rest hstage hlock => exact Or.inl ⟨howes, Or.inr ⟨rest, rfl⟩⟩
  | apply ad rest rib ribInterface hstage hlock hupdate =>
    exact Or.inl ⟨owes_hear_of_owes howes, Or.inr ⟨rest, rfl⟩⟩
  | publish hstage =>
    right
    refine Or.inl ⟨Nat.zero_le m, ?_⟩
    refine ⟨self.process.getBestRouteChanges.nextAdvertisement forms instant.timestamp,
      List.mem_append_right _ (List.mem_singleton_self _), ?_⟩
    have htold := @announces_advertisementOf forms network speaker (settingOf self)
      instant.timestamp hlegible howes
    rw [← hspeaks.pending] at htold
    exact htold
  | receiveUnset n hstage hat hlt =>
    rcases hstage with hstage | hstage <;>
      exact (hnone (by simp [hstage]) (by simp [hstage])).elim
  | collect n interface hstage hat hnothing =>
    rcases hstage with hstage | hstage <;>
      exact (hnone (by simp [hstage]) (by simp [hstage])).elim
  | receiveTimedOut n interface hstage => exact (hnone (by simp [hstage]) (by simp [hstage])).elim
  | receiveBegin n interface hstage => exact (hnone (by simp [hstage]) (by simp [hstage])).elim
  | receiveDone n hstage => exact (hnone (by simp [hstage]) (by simp [hstage])).elim
  | take n interface interface' id message rest hstage =>
    exact (hnone (by simp [hstage]) (by simp [hstage])).elim
  | discardForeign n interface id message rest hstage =>
    exact (hnone (by simp [hstage]) (by simp [hstage])).elim
  | discardFull n interface id ad rest hstage =>
    exact (hnone (by simp [hstage]) (by simp [hstage])).elim
  | sendUnset n hstage => exact (hnone (by simp [hstage]) (by simp [hstage])).elim
  | sendNothing n interface hstage => exact (hnone (by simp [hstage]) (by simp [hstage])).elim
  | sendBegin n interface hstage => exact (hnone (by simp [hstage]) (by simp [hstage])).elim
  | sendDone n hstage => exact (hnone (by simp [hstage]) (by simp [hstage])).elim
  | sendingDone n rest hstage => exact (hnone (by simp [hstage]) (by simp [hstage])).elim
  | filterOut n interface ad rest hstage => exact (hnone (by simp [hstage]) (by simp [hstage])).elim
  | put n interface ad rest id channel hstage =>
    exact (hnone (by simp [hstage]) (by simp [hstage])).elim
  | refuse n interface ad rest id e hstage =>
    exact (hnone (by simp [hstage]) (by simp [hstage])).elim

/-- Before the session's turn to send, the other sessions leave the advertisement as it is. -/
theorem unpushed_steps (hsteps : Steps forms instant shared self shared' self' effect)
    (htidy : Tidy self) (hwrites : WritesAt forms network self m c)
    (hunpushed : Unpushed m self.stage) (htold : Told forms network self.process.advertisement)
    (hharmless : ∀ done ∈ effect, Harmless forms network done) :
    Unsent forms network self' m := by
  obtain ⟨own, hown, hownOut, -⟩ := hwrites
  have hlength := lt_length_of_interfaceAt hown
  have hne : self.process.advertisement ≠ [] := by
    intro hnil
    rw [hnil] at htold
    exact not_told_nil htold
  have hnot : ∀ stage, self.stage = stage → ¬ Unpushed m stage → False := by
    intro stage hstage hnot
    exact hnot (hstage ▸ hunpushed)
  cases hsteps with
  | sendUnset k hstage hat hlt =>
    have hk : k ≠ m := by
      rintro rfl
      rw [hown] at hat
      cases hat
    rw [hstage] at hunpushed
    exact Or.inl ⟨Nat.succ_le_of_lt (Nat.lt_of_le_of_ne hunpushed hk), htold⟩
  | sendNothing k interface hstage hat hnothing =>
    have hk : k ≠ m := by
      rintro rfl
      obtain rfl := Option.some.inj (hown.symm.trans hat)
      have hout : own.outChannel ≠ none := by simp [hownOut]
      rcases hnothing with hnothing | hnothing
      · rw [pushed_items htidy (htidy.interfaces k own hat) hout] at hnothing
        exact hne hnothing
      · exact hout hnothing
    rw [hstage] at hunpushed
    exact Or.inl ⟨Nat.succ_le_of_lt (Nat.lt_of_le_of_ne hunpushed hk), htold⟩
  | sendBegin k interface hstage hat hout =>
    rw [hstage] at hunpushed
    by_cases hk : k = m
    · subst hk
      refine Or.inr ⟨_, rfl, ?_⟩
      rw [pushed_items htidy (htidy.interfaces k interface hat) hout]
      exact htold
    · exact Or.inl ⟨Nat.lt_of_le_of_ne hunpushed hk, htold⟩
  | sendDone k hstage hlen =>
    rw [hstage] at hunpushed
    exact absurd (Nat.le_trans hlen hunpushed) (by omega)
  | sendingDone k rest hstage hrest =>
    rw [hstage] at hunpushed
    exact Or.inl ⟨hunpushed, htold⟩
  | filterOut k interface ad rest hstage hat hkeep =>
    rw [hstage] at hunpushed
    exact Or.inl ⟨hunpushed, htold⟩
  | put k interface ad rest id channel hstage hat hout hkeep hsend =>
    rw [hstage] at hunpushed
    exact Or.inl ⟨hunpushed, htold⟩
  | refuse k interface ad rest id e hstage hat hout hkeep hsend => exact (hharmless _ rfl).elim
  | receiveUnset k hstage hat hlt =>
    rcases hstage with hstage | hstage
    · exact (hnot _ hstage not_false).elim
    · exact (hnot _ hstage not_false).elim
  | collect k interface hstage hat hnothing =>
    rcases hstage with hstage | hstage
    · exact (hnot _ hstage not_false).elim
    · exact (hnot _ hstage not_false).elim
  | receiveTimedOut k interface hstage => exact (hnot _ hstage not_false).elim
  | receiveBegin k interface hstage => exact (hnot _ hstage not_false).elim
  | receiveDone k hstage => exact (hnot _ hstage not_false).elim
  | take k interface interface' id message rest hstage => exact (hnot _ hstage not_false).elim
  | discardForeign k interface id message rest hstage => exact (hnot _ hstage not_false).elim
  | discardFull k interface id ad rest hstage => exact (hnot _ hstage not_false).elim
  | updateDone hstage => exact (hnot _ hstage not_false).elim
  | skip ad rest hstage => exact (hnot _ hstage not_false).elim
  | apply ad rest rib ribInterface hstage => exact (hnot _ hstage not_false).elim
  | publish hstage => exact (hnot _ hstage not_false).elim

/-- What the session has to send is put on its channel. -/
theorem Unsent.steps (h : Unsent forms network self m) (htidy : Tidy self)
    (hwrites : WritesAt forms network self m c)
    (hsteps : Steps forms instant shared self shared' self' effect)
    (hharmless : ∀ done ∈ effect, Harmless forms network done) :
    Unsent forms network self' m ∨
      ∃ ad, .advertisement ad ∈ (shared'.links c).queue.items ∧ Announces forms network ad := by
  rcases h with ⟨hunpushed, htold⟩ | ⟨rest, hsending, first, hmem, hannounces⟩
  · exact Or.inl (unpushed_steps hsteps htidy hwrites hunpushed htold hharmless)
  · obtain ⟨own, hown, hownOut, hpass⟩ := hwrites
    have hnot : ∀ stage, self.stage = stage → (∀ ads, stage ≠ .sending m ads) → False := by
      intro stage hstage hnot
      exact hnot rest (hstage.symm.trans hsending)
    cases hsteps with
    | sendingDone k ads hstage hdone =>
      obtain ⟨rfl, rfl⟩ := Stage.sending.inj (hstage.symm.trans hsending)
      rcases hdone with rfl | hat | ⟨interface, hat, hout⟩
      · exact absurd hmem List.not_mem_nil
      · rw [hown] at hat
        cases hat
      · obtain rfl := Option.some.inj (hown.symm.trans hat)
        rw [hownOut] at hout
        cases hout
    | filterOut k interface ad ads hstage hat hkeep =>
      obtain ⟨rfl, rfl⟩ := Stage.sending.inj (hstage.symm.trans hsending)
      obtain rfl := Option.some.inj (hown.symm.trans hat)
      rcases List.mem_cons.mp hmem with rfl | hmem
      · rw [hpass _ hannounces] at hkeep
        cases hkeep
      · exact Or.inl (Or.inr ⟨ads, rfl, first, hmem, hannounces⟩)
    | put k interface ad ads id channel hstage hat hout hkeep hsend =>
      obtain ⟨rfl, rfl⟩ := Stage.sending.inj (hstage.symm.trans hsending)
      obtain rfl := Option.some.inj (hown.symm.trans hat)
      obtain rfl := Option.some.inj (hownOut.symm.trans hout)
      rcases List.mem_cons.mp hmem with rfl | hmem
      · right
        refine ⟨first, ?_, hannounces⟩
        rw [hpass _ hannounces] at hsend
        simp [Shared.setLink, Channel.items_of_trySend hsend]
      · exact Or.inl (Or.inr ⟨ads, rfl, first, hmem, hannounces⟩)
    | refuse k interface ad ads id e hstage hat hout hkeep hsend => exact (hharmless _ rfl).elim
    | receiveUnset k hstage hat hlt =>
      rcases hstage with hstage | hstage
      · exact (hnot _ hstage (by simp)).elim
      · exact (hnot _ hstage (by simp)).elim
    | collect k interface hstage hat hnothing =>
      rcases hstage with hstage | hstage
      · exact (hnot _ hstage (by simp)).elim
      · exact (hnot _ hstage (by simp)).elim
    | receiveTimedOut k interface hstage => exact (hnot _ hstage (by simp)).elim
    | receiveBegin k interface hstage => exact (hnot _ hstage (by simp)).elim
    | receiveDone k hstage => exact (hnot _ hstage (by simp)).elim
    | take k interface interface' id message ads hstage => exact (hnot _ hstage (by simp)).elim
    | discardForeign k interface id message ads hstage => exact (hnot _ hstage (by simp)).elim
    | discardFull k interface id ad ads hstage => exact (hnot _ hstage (by simp)).elim
    | updateDone hstage => exact (hnot _ hstage (by simp)).elim
    | skip ad ads hstage => exact (hnot _ hstage (by simp)).elim
    | apply ad ads rib ribInterface hstage => exact (hnot _ hstage (by simp)).elim
    | publish hstage => exact (hnot _ hstage (by simp)).elim
    | sendUnset k hstage => exact (hnot _ hstage (by simp)).elim
    | sendNothing k interface hstage => exact (hnot _ hstage (by simp)).elim
    | sendBegin k interface hstage => exact (hnot _ hstage (by simp)).elim
    | sendDone k hstage => exact (hnot _ hstage (by simp)).elim

end Senders

end NetfabricBgp.Spreads
