import NetfabricBgp.Filters
import NetfabricBgp.Origins

/-!
Filters that are made of other filters. They ask one filter after the other and stop at the first
that decides, and each filter sees what the ones before it have left. In a network, nothing
reaches a RIB that the filter of a session has not let through.
-/
namespace NetfabricBgp.FilterCombinators

open Addresses Routes RouterMasks Ribs Advertisements KeyedLog BoundedQueues Channels Interfaces
  Filters Sessions Processes Supplies LinkThreads Routers QuietNetworks ProcessThreads ThreadSteps
  ThreadHistories Flows Origins

variable {α : Type}

/-- What some filters leave of an element, one after the other. -/
def left (filters : List (Interfaces.Filter α)) (element : α) : α :=
  filters.foldl (fun element filter => (filter element).2) element

structure CombinedOrFilter (α : Type) where
  filters : List (Interfaces.Filter α)

structure CombinedAndFilter (α : Type) where
  filters : List (Interfaces.Filter α)

/-- `any` over the filters -/
def anyFilter : List (Interfaces.Filter α) → Interfaces.Filter α
  | [], element => (false, element)
  | filter :: rest, element =>
    let (keep, element) := filter element
    if keep then (true, element) else anyFilter rest element

/-- `all` over the filters -/
def allFilters : List (Interfaces.Filter α) → Interfaces.Filter α
  | [], element => (true, element)
  | filter :: rest, element =>
    let (keep, element) := filter element
    if keep then allFilters rest element else (false, element)

namespace CombinedOrFilter

def new : CombinedOrFilter α := ⟨[]⟩

def fromVec (filters : List (Interfaces.Filter α)) : CombinedOrFilter α := ⟨filters⟩

def addFilter (self : CombinedOrFilter α) (filter : Interfaces.Filter α) : CombinedOrFilter α :=
  ⟨self.filters ++ [filter]⟩

def filter (self : CombinedOrFilter α) : Interfaces.Filter α := anyFilter self.filters

end CombinedOrFilter

namespace CombinedAndFilter

def new : CombinedAndFilter α := ⟨[]⟩

def fromVec (filters : List (Interfaces.Filter α)) : CombinedAndFilter α := ⟨filters⟩

def addFilter (self : CombinedAndFilter α) (filter : Interfaces.Filter α) : CombinedAndFilter α :=
  ⟨self.filters ++ [filter]⟩

def filter (self : CombinedAndFilter α) : Interfaces.Filter α := allFilters self.filters

end CombinedAndFilter

/-- `VecFilterAny`: the elements after the first that passes are not looked at. -/
def vecFilterAny (filter : Interfaces.Filter α) : Interfaces.Filter (List α)
  | [] => (false, [])
  | element :: rest =>
    let (keep, element) := filter element
    if keep then (true, element :: rest)
    else
      let (keep, rest) := vecFilterAny filter rest
      (keep, element :: rest)

/-- `VecFilterAll`: nor are those after the first that does not pass. -/
def vecFilterAll (filter : Interfaces.Filter α) : Interfaces.Filter (List α)
  | [] => (true, [])
  | element :: rest =>
    let (keep, element) := filter element
    if keep then
      let (keep, rest) := vecFilterAll filter rest
      (keep, element :: rest)
    else (false, element :: rest)

structure HostFilter where
  host : String

namespace HostFilter

def new (host : String) : HostFilter := ⟨host⟩

def filter (self : HostFilter) : Interfaces.Filter Advertisement := fun ad =>
  (ad.host = self.host, ad)

end HostFilter

section Combined
variable {filters : List (Interfaces.Filter α)} {element : α}

/-- An element passes if one filter lets through what the rejecting ones before it have left. -/
theorem anyFilter_eq_true_iff :
    (anyFilter filters element).1 = true ↔ ∃ before filter after,
      filters = before ++ filter :: after ∧ (filter (left before element)).1 = true ∧
        (anyFilter before element).1 = false ∧
          (anyFilter filters element).2 = (filter (left before element)).2 := by
  induction filters generalizing element with
  | nil => simp [anyFilter]
  | cons first rest ih =>
    by_cases hkeep : (first element).1 = true
    · constructor
      · intro _
        exact ⟨[], first, rest, rfl, hkeep, rfl, by simp [anyFilter, hkeep, left]⟩
      · intro _
        simp [anyFilter, hkeep]
    · have hskip : anyFilter (first :: rest) element = anyFilter rest (first element).2 := by
        simp [anyFilter, hkeep]
      rw [hskip, ih]
      constructor
      · rintro ⟨before, filter, after, rfl, hfilter, hbefore, hleft⟩
        refine ⟨first :: before, filter, after, rfl, hfilter, ?_, hleft⟩
        simpa [anyFilter, hkeep] using hbefore
      · rintro ⟨before, filter, after, hsplit, hfilter, hbefore, hleft⟩
        cases before with
        | nil =>
          obtain ⟨rfl, rfl⟩ := List.cons.inj hsplit
          exact absurd hfilter hkeep
        | cons other before =>
          obtain ⟨rfl, rfl⟩ := List.cons.inj hsplit
          refine ⟨before, filter, after, rfl, hfilter, ?_, hleft⟩
          simpa [anyFilter, hkeep] using hbefore

/-- It passes all if each lets through what the ones before it have left, and then it is what
all of them leave. -/
theorem allFilters_eq_true_iff :
    (allFilters filters element).1 = true ↔ ∀ before filter after,
      filters = before ++ filter :: after → (filter (left before element)).1 = true := by
  induction filters generalizing element with
  | nil => simp [allFilters]
  | cons first rest ih =>
    by_cases hkeep : (first element).1 = true
    · have hnext : allFilters (first :: rest) element = allFilters rest (first element).2 := by
        simp [allFilters, hkeep]
      rw [hnext, ih]
      constructor
      · intro h before filter after hsplit
        cases before with
        | nil =>
          obtain ⟨rfl, rfl⟩ := List.cons.inj hsplit
          exact hkeep
        | cons other before =>
          obtain ⟨rfl, rfl⟩ := List.cons.inj hsplit
          exact h before filter after rfl
      · rintro h before filter after rfl
        exact h (first :: before) filter after rfl
    · constructor
      · intro h
        simp [allFilters, hkeep] at h
      · intro h
        exact absurd (h [] first rest rfl) hkeep

theorem allFilters_left (h : (allFilters filters element).1 = true) :
    (allFilters filters element).2 = left filters element := by
  induction filters generalizing element with
  | nil => rfl
  | cons first rest ih =>
    by_cases hkeep : (first element).1 = true
    · have hnext : allFilters (first :: rest) element = allFilters rest (first element).2 := by
        simp [allFilters, hkeep]
      rw [hnext] at h ⊢
      exact ih h
    · simp [allFilters, hkeep] at h

/-- Filters that change nothing leave what they were given. -/
theorem left_of_keeps (h : ∀ filter ∈ filters, ∀ element, (filter element).2 = element) :
    left filters element = element := by
  induction filters generalizing element with
  | nil => rfl
  | cons first rest ih =>
    have hrest : left rest (first element).2 = (first element).2 :=
      ih (fun filter hfilter => h filter (List.mem_cons_of_mem _ hfilter))
    exact hrest.trans (h first List.mem_cons_self element)

end Combined

section Admissions
variable {ι : Type*} [DecidableEq ι] (forms : TextForms) (state : Threads ι)
  (events : List (Event ι))

/-- After the earlier events, a session of the thread takes an advertisement from its channel, and
its filter lets it through and leaves it as the second. -/
def Takes (earlier : List (Event ι)) (i : ι) (c : ChannelId) (ad ad' : Advertisement) : Prop :=
  ∃ self n interface, Does forms state events earlier i self (.take c (.advertisement ad)) ∧
    self.stage = .receiving n ∧ self.interfaceAt n = some interface ∧
      interface.inChannel = some c ∧ interface.inFilter ad = (true, ad')

/-- After the earlier events, a session of the thread puts the advertisement on its channel as its
filter has let it through. -/
def Puts (earlier : List (Event ι)) (i : ι) (c : ChannelId) (ad : Advertisement) : Prop :=
  ∃ self n interface own rest, Does forms state events earlier i self (.put c (.advertisement ad)) ∧
    self.stage = .sending n (own :: rest) ∧ self.interfaceAt n = some interface ∧
      interface.outChannel = some c ∧ interface.outFilter own = (true, ad)

/-- On the channel at the start, or come there in the run from outside or from a session. -/
def Sent (c : ChannelId) (ad : Advertisement) : Prop :=
  (∃ state' history, run forms state events = .ok (state', history) ∧
    Arrives state history c ad) ∨ ∃ j earlier, Puts forms state events earlier j c ad

/-- What a session of the thread has taken from its channel in the run, as its filter left it.
Before that it was sent on the channel. -/
def Admitted (i : ι) (ad : Advertisement) : Prop :=
  ∃ earlier c taken, Takes forms state events earlier i c taken ad ∧
    Sent forms state earlier c taken

/-- What filters let through. -/
def admissions : Flow ι where
  carried := Sent forms state events
  inbound := fun i ad => ∃ earlier c taken, Takes forms state events earlier i c taken ad
  outbound := fun _ _ => True
  announced := fun _ _ => True
  withdrawn := fun _ _ => True

theorem covers_admissions {forms : TextForms} {state : Threads ι} {events : List (Event ι)}
    {earlier : List (Event ι)} {i : ι} {self : Thread} {effect : Effect}
    (h : Does forms state events earlier i self effect) :
    Covers forms (admissions forms state events) i self effect := by
  cases effect with
  | take c message =>
    cases message with
    | foreign type => trivial
    | advertisement ad =>
      intro n interface hstage hat hin _ hkeep
      exact ⟨earlier, c, ad, self, n, interface, h, hstage, hat, hin, Prod.ext hkeep rfl⟩
  | put c message =>
    cases message with
    | foreign type => trivial
    | advertisement ad =>
      intro n interface own rest hstage hat hout _ hfilter
      exact Or.inr ⟨i, earlier, self, n, interface, own, rest, h, hstage, hat, hout, hfilter⟩
  | apply rib client ad => exact fun _ => ⟨fun _ _ => trivial, fun _ _ => trivial⟩
  | publish ad => exact fun _ _ _ => trivial
  | discard c message => trivial
  | refuse c message => trivial
  | skip ad => trivial

end Admissions

section Runs
variable {ι : Type*} [DecidableEq ι] {forms : TextForms} {state state' : Threads ι}
  {events earlier : List (Event ι)} {history : List (Option ι × Effect)} {i : ι}

theorem keeps_admissions
    (huntouched : ∀ i self, state.thread i = some self → Untouched self)
    (hrun : run forms state events = .ok (state', history)) :
    Keeps (admissions forms state events) state' := by
  have hkeeps : Keeps (admissions forms state events) state :=
    ⟨fun c ad had => Or.inl ⟨state', history, hrun, Or.inl had⟩,
      fun i self hself => (huntouched i self hself).within⟩
  exact (hkeeps.run_covered (fun _ _ _ _ hdoes => covers_admissions hdoes) hrun
    (fun c ad had => Or.inl ⟨state', history, hrun, Or.inr had⟩)).1

/-- Whatever is applied to a RIB was taken before by a session that let it through. -/
theorem exists_takes (huntouched : ∀ i self, state.thread i = some self → Untouched self)
    {self : Thread} {rib : RibId} {client : Uuid} {ad : Advertisement}
    (h : Does forms state events earlier i self (.apply rib client ad)) :
    ∃ before c taken, Takes forms state earlier before i c taken ad := by
  obtain ⟨instant, reached, history, shared, self', hrun, hself, hsteps⟩ := h.steps
  have hstage := ((keeps_admissions huntouched hrun).threads i self hself).stage
  cases hsteps with
  | apply ad rest rib' ribInterface hupdate hlock hlocked =>
    rw [hupdate] at hstage
    exact hstage ad List.mem_cons_self

/-- Whatever is taken from a channel was sent there before. -/
theorem sent_of_takes (huntouched : ∀ i self, state.thread i = some self → Untouched self)
    {c : ChannelId} {taken ad : Advertisement}
    (h : Takes forms state events earlier i c taken ad) : Sent forms state earlier c taken := by
  obtain ⟨self, -, -, hdoes, -⟩ := h
  obtain ⟨instant, reached, history, shared, self', hrun, hself, hsteps⟩ := hdoes.steps
  refine (keeps_admissions huntouched hrun).channels c taken ?_
  obtain ⟨⟨rest, hqueue⟩, -⟩ := changes_of_steps hsteps
  rw [hqueue]
  exact List.mem_cons_self

/-- Whatever the interleaving, when a process applies an advertisement to its RIB, one of its
sessions has taken it from its channel before, and that session's filter let it through as it is.
What was taken had come to the channel before that: from outside, or from a session that put it
there as its own filter let it through. -/
theorem admitted_run (forms : TextForms) (state : Threads ι)
    (huntouched : ∀ i self, state.thread i = some self → Untouched self)
    (events earlier : List (Event ι)) (i : ι) (self : Thread) (rib : RibId) (client : Uuid)
    (ad : Advertisement)
    (hdoes : Does forms state events earlier i self (.apply rib client ad)) :
    Admitted forms state earlier i ad := by
  obtain ⟨before, c, taken, htakes⟩ := exists_takes huntouched hdoes
  exact ⟨before, c, taken, htakes, sent_of_takes huntouched htakes⟩

end Runs

def filteredSession (inFilter outFilter : Interfaces.Filter Advertisement)
    (session : BgpSession) : BgpSession :=
  { session with interface := session.interface.map (fun interface =>
      (interface.setInFilter inFilter).setOutFilter outFilter) }

/-- Filters put nothing into the buffers of a session. -/
theorem quiet_filtered {inFilter outFilter : Interfaces.Filter Advertisement}
    {session : BgpSession} {sessions : List BgpSession}
    (hquiet : ∀ session ∈ sessions, QuietSession session)
    (h : session ∈ sessions.map (filteredSession inFilter outFilter)) : QuietSession session := by
  obtain ⟨own, hown, rfl⟩ := List.mem_map.mp h
  intro interface hinterface
  obtain ⟨bare, hbare, rfl⟩ := Option.map_eq_some_iff.mp hinterface
  exact hquiet own hown bare hbare

/-- One session without filters, and one that hears only what its neighbour sends. -/
def ringProcess : HostedProcess :=
  let hosted := linkedProcess 1 0 0 1
  let behind := (linkedProcess 1 0 2 3).process.sessions.map
    (filteredSession (HostFilter.new "10.0.0.1").filter NoFilter)
  { hosted with process := { hosted.process with sessions := hosted.process.sessions ++ behind } }

def neighbourProcess : HostedProcess :=
  let hosted := linkedProcess 2 1 1 2
  { hosted with process := { hosted.process with
    sessions := hosted.process.sessions.map
      (filteredSession NoFilter (OwnASFilter.new 65000).filter) } }

/-- The neighbour reads what the open session sends, and writes for the other. -/
def ringThreads : Threads ℕ where
  thread := fun i =>
    if i = 0 then some (.start ringProcess)
    else if i = 1 then some (.start neighbourProcess)
    else none
  shared := linkedThreads.shared

/-- An advertisement for the open session goes round, and one for the other is rejected. -/
def ringEvents : List (Event ℕ) :=
  .arrive 0 (.advertisement (.sample "10.0.0.2" "10.0.0.2" [65001] true false)) ::
    .arrive 2 (.advertisement (.sample "10.0.0.3" "10.0.0.3" [65001] true false)) ::
      (List.replicate 17 (.act 0 ⟨.acquired, 0⟩) ++ List.replicate 11 (.act 1 ⟨.acquired, 0⟩) ++
        List.replicate 9 (.act 0 ⟨.acquired, 0⟩))

theorem untouched_ring (i : ℕ) (self : Thread) (hself : ringThreads.thread i = some self) :
    Untouched self := by
  have hcases : self = .start ringProcess ∨ self = .start neighbourProcess := by
    have hthread : (if i = 0 then some (Thread.start ringProcess)
        else if i = 1 then some (Thread.start neighbourProcess) else none) = some self := hself
    by_cases hzero : i = 0
    · rw [if_pos hzero] at hthread
      exact Or.inl (Option.some.inj hthread).symm
    · rw [if_neg hzero] at hthread
      by_cases hone : i = 1
      · rw [if_pos hone] at hthread
        exact Or.inr (Option.some.inj hthread).symm
      · rw [if_neg hone] at hthread
        cases hthread
  rcases hcases with rfl | rfl
  · refine ⟨ringProcess, ⟨?_, rfl, rfl, rfl⟩, rfl⟩
    intro session hsession
    rcases List.mem_append.mp hsession with hopen | hbehind
    · exact quiet_linked 1 0 hopen
    · exact quiet_filtered (fun _ => quiet_linked 1 0) hbehind
  · exact ⟨neighbourProcess,
      ⟨fun _ hsession => quiet_filtered (fun _ => quiet_linked 2 1) hsession, rfl, rfl, rfl⟩, rfl⟩

theorem admitted_run_ring :
    ∃ earlier self ad, Does .sample ringThreads ringEvents earlier 0 self (.apply 0 1 ad) ∧
      ad.host = "10.0.0.1" ∧ Admitted .sample ringThreads earlier 0 ad := by
  obtain ⟨state', history, ad, hrun, happly, hhost⟩ : ∃ state' history ad,
      run .sample ringThreads ringEvents = .ok (state', history) ∧
      history[13]? = some (some 0, .apply 0 1 ad) ∧ ad.host = "10.0.0.1" :=
    ⟨_, _, _, rfl, rfl, rfl⟩
  obtain ⟨earlier, self, hdoes⟩ := exists_does hrun (List.mem_of_getElem? happly)
  exact ⟨earlier, self, ad, hdoes, hhost, admitted_run .sample ringThreads untouched_ring
    ringEvents earlier 0 self 0 1 ad hdoes⟩

section Paths
variable {ι : Type*} [DecidableEq ι] {forms : TextForms}

/-- The filter asks for the own autonomous system, beside others that change nothing. -/
def RefusesOwn (asn : UInt64) (filter : Interfaces.Filter Advertisement) : Prop :=
  ∃ filters, filter = (CombinedAndFilter.fromVec filters).filter ∧
    (OwnASFilter.new asn).filter ∈ filters ∧ ∀ other ∈ filters, ∀ ad, (other ad).2 = ad

theorem RefusesOwn.path {asn : UInt64} {filter : Interfaces.Filter Advertisement}
    (h : RefusesOwn asn filter) {ad : Advertisement} (hkeep : (filter ad).1 = true) :
    ¬ ∃ path, (filter ad).2.path = some path ∧ path.any (OwnASFilter.new asn).mentions = true := by
  obtain ⟨filters, rfl, hown, hkeeps⟩ := h
  obtain ⟨before, after, hsplit⟩ := List.mem_iff_append.mp hown
  have hleft : (allFilters filters ad).2 = ad :=
    (allFilters_left hkeep).trans (left_of_keeps hkeeps)
  have hbefore : left before ad = ad := by
    refine left_of_keeps (fun other hother => hkeeps other ?_)
    rw [hsplit]
    exact List.mem_append_left _ hother
  have hpass := allFilters_eq_true_iff.mp hkeep before _ after hsplit
  rw [hbefore] at hpass
  show ¬ ∃ path, (allFilters filters ad).2.path = some path ∧ _
  rw [hleft, ← OwnASFilter.filter_eq_false_iff, hpass]
  exact Bool.noConfusion

theorem asPath_of_announced {ad : Advertisement} {route : Route}
    (h : route ∈ ad.getAnnouncements forms) : route.asPath = ad.path.getD [] := by
  obtain ⟨announcement, -, pfx, -, hroute⟩ := (Advertisement.mem_getAnnouncements_iff forms).mp h
  exact (Advertisement.route_eq_some forms hroute).2

/-- If all sessions of a client's processes refuse its own autonomous system, then whatever the
interleaving, it holds no route that leads through that system. -/
theorem loopFree_run (forms : TextForms) (state : Threads ι)
    (huntouched : ∀ i self, state.thread i = some self → Untouched self) (events : List (Event ι))
    (state' : Threads ι) (history : List (Option ι × Effect))
    (hrun : run forms state events = .ok (state', history)) (rib : RibId) (client : Uuid)
    (hstart : ∃ ids : List Uuid,
      BgpRib.new.run (ids.map .registerRouter) = .ok (state.shared.ribs rib)) (asn : UInt64)
    (hrefuses : ∀ i setting port, settings state i = some setting → setting.rib = rib →
      setting.clientId = client → some port ∈ setting.ports → RefusesOwn asn port.inFilter)
    (network : IpNetwork) (route : Route)
    (hheld : route ∈ (state'.shared.ribs rib).held client network) :
    route.asPath.any (OwnASFilter.new asn).mentions = false := by
  obtain ⟨ids, hids⟩ := hstart
  have hcalls := Runs.run_append_ok.mpr ⟨_, hids, rib_run hrun rib⟩
  obtain ⟨hlive, -⟩ := (ReferenceStores.mem_held_iff_live hcalls).mp hheld
  rw [ownLog_started] at hlive
  obtain ⟨actor, ad, hmem, hentry⟩ := exists_of_appliedLog (add_mem_of_live Route.key hlive)
  obtain ⟨i, setting, rfl, hsetting, hrib, hclient⟩ := exists_of_apply hrun hmem
  obtain ⟨earlier, self, hdoes⟩ := exists_does hrun hmem
  obtain ⟨before, c, taken, taker, n, interface, htakes, -, hat, -, hfilter⟩ :=
    exists_takes huntouched hdoes
  obtain rfl := Option.some.inj (hsetting.symm.trans (setting_of_does htakes))
  have hrefused := hrefuses i (settingOf taker) (portOf interface) hsetting hrib hclient
    (port_mem hat)
  have hpath := hrefused.path (congrArg Prod.fst hfilter)
  rw [show (portOf interface).inFilter taken = (true, ad) from hfilter] at hpath
  have hroute : route ∈ ad.getAnnouncements forms := by
    simpa [Advertisement.entries] using hentry
  rw [asPath_of_announced hroute]
  cases hcase : ad.path with
  | none => rfl
  | some path =>
    by_contra hnot
    exact hpath ⟨path, hcase, by simpa using hnot⟩

end Paths

section Sample

/-- The filter of the parser's session in `main`. -/
def ripeHosts : Interfaces.Filter Advertisement :=
  (CombinedOrFilter.fromVec [(HostFilter.new "rrc15.ripe.net").filter,
    (HostFilter.new "rrc16.ripe.net").filter]).filter

theorem ripeHosts_keeps (ad : Advertisement) : (ripeHosts ad).2 = ad := by
  by_cases hfirst : ad.host = "rrc15.ripe.net"
  · simp [ripeHosts, CombinedOrFilter.filter, CombinedOrFilter.fromVec, anyFilter,
      HostFilter.filter, HostFilter.new, hfirst]
  · by_cases hsecond : ad.host = "rrc16.ripe.net" <;>
      simp [ripeHosts, CombinedOrFilter.filter, CombinedOrFilter.fromVec, anyFilter,
        HostFilter.filter, HostFilter.new, hfirst, hsecond]

/-- Two hosts, and no path through the own system. -/
def guard : List (Interfaces.Filter Advertisement) := [ripeHosts, (OwnASFilter.new 65000).filter]

def guardedProcess : HostedProcess :=
  let hosted := linkedProcess 1 0 0 1
  { hosted with process := { hosted.process with
    sessions := hosted.process.sessions.map
      (filteredSession (CombinedAndFilter.fromVec guard).filter NoFilter) } }

def guardedThreads : Threads ℕ where
  thread := fun i => if i = 0 then some (.start guardedProcess) else none
  shared := linkedThreads.shared

def hostAd (host : String) (asn : UInt64) : Advertisement :=
  { Advertisement.sample "10.0.0.2" "10.0.0.2" [65001, asn] true false with host := host }

/-- Only the last advertisement is applied. -/
def guardedEvents : List (Event ℕ) :=
  .arrive 0 (.advertisement (hostAd "10.0.0.2" 65002)) ::
    .arrive 0 (.advertisement (hostAd "rrc15.ripe.net" 65000)) ::
      .arrive 0 (.advertisement (hostAd "rrc16.ripe.net" 65002)) ::
        List.replicate 8 (.act 0 ⟨.acquired, 0⟩)

theorem untouched_guarded (i : ℕ) (self : Thread) (hself : guardedThreads.thread i = some self) :
    Untouched self := by
  have hthread : (if i = 0 then some (Thread.start guardedProcess) else none) = some self := hself
  by_cases hzero : i = 0
  · rw [if_pos hzero] at hthread
    exact ⟨guardedProcess,
      ⟨fun _ hsession => quiet_filtered (fun _ => quiet_linked 1 0) hsession, rfl, rfl, rfl⟩,
      (Option.some.inj hthread).symm⟩
  · rw [if_neg hzero] at hthread
    cases hthread

theorem refusesOwn_guard : RefusesOwn 65000 (CombinedAndFilter.fromVec guard).filter := by
  refine ⟨guard, rfl, List.mem_cons_of_mem _ List.mem_cons_self, ?_⟩
  intro filter hfilter ad
  rcases List.mem_cons.mp hfilter with rfl | hfilter
  · exact ripeHosts_keeps ad
  · obtain rfl := List.mem_singleton.mp hfilter
    unfold OwnASFilter.filter
    cases ad.path with
    | none => rfl
    | some path => by_cases hmentions : path.any (OwnASFilter.new 65000).mentions = true <;>
        simp [hmentions]

theorem loopFree_run_guarded :
    ∃ state' history route,
      run .sample guardedThreads guardedEvents = .ok (state', history) ∧
      route ∈ (state'.shared.ribs 0).held 1 (.V4 (.around 0x0A000000#32 8)) ∧
      route.asPath = [.ASN 65001, .ASN 65002] ∧
      route.asPath.any (OwnASFilter.new 65000).mentions = false := by
  obtain ⟨state', history, route, hrun, hheld, hpath⟩ : ∃ state' history route,
      run .sample guardedThreads guardedEvents = .ok (state', history) ∧
      route ∈ (state'.shared.ribs 0).held 1 (.V4 (.around 0x0A000000#32 8)) ∧
      route.asPath = [.ASN 65001, .ASN 65002] :=
    ⟨_, _, ⟨.V4 0x0A000002#32, .V4 (.around 0x0A000000#32 8), "10.0.0.2",
      [.ASN 65001, .ASN 65002]⟩, rfl, by decide, rfl⟩
  refine ⟨state', history, route, hrun, hheld, hpath, loopFree_run .sample guardedThreads
    untouched_guarded guardedEvents state' history hrun 0 1 ⟨[], rfl⟩ 65000 ?_ _ route hheld⟩
  intro i setting port hsetting _ _ hport
  obtain ⟨self, hself, rfl⟩ := Option.map_eq_some_iff.mp hsetting
  have hthread : (if i = 0 then some (Thread.start guardedProcess) else none) = some self := hself
  by_cases hzero : i = 0
  · rw [if_pos hzero] at hthread
    obtain rfl := Option.some.inj hthread
    obtain rfl := Option.some.inj (List.mem_singleton.mp hport)
    exact refusesOwn_guard
  · rw [if_neg hzero] at hthread
    cases hthread

end Sample

end NetfabricBgp.FilterCombinators
