import NetfabricBgp.Feeds
import NetfabricBgp.ParserRuns

/-!
A network with the parser that feeds it, from the bytes of the stream to the RIBs of the routers.
However the parser, the task of its stream and the routers interleave, what comes to the fed router
from outside is from complete lines of the stream, in their order, and whatever a router holds was
announced in one of them.
-/
namespace NetfabricBgp.LiveNetworks

open Addresses Routes RouterMasks Ribs Advertisements Channels Interfaces Sessions Processes
  Supplies MessageBuses Topologies Routers Networks TopologyWirings LiveParsers LineDeliveries
  ProcessThreads ThreadSteps ThreadHistories ThreadCycles Flows Origins FilterCombinators
  TopologyThreads TopologyOrigins QueueNets NetRefinements NetRuns Feeds ParserThreads ParserRuns

/-- The threads of a network and of a parser, before their first steps. -/
def liveThreads (state : NetworkManager × Supply) (parser : LiveBgpParser UInt8) :
    LiveThreads (Uuid × ℕ) :=
  ⟨threadsOf state, .start parser⟩

section Outside
variable {ι : Type*} {forms : TextForms} {wiring : Wiring ι} {c : ChannelId}

theorem mem_sentOn {log : List (Report ι)} {ad : Advertisement} :
    ad ∈ sentOn c log ↔ (none, Effect.put c (.advertisement ad)) ∈ effects log := by
  unfold sentOn
  rw [List.mem_filterMap]
  constructor
  · rintro ⟨⟨place, effect⟩, hmem, harrived⟩
    cases place with
    | some place => cases effect <;> cases harrived
    | none =>
      cases effect with
      | put other message =>
        cases message with
        | foreign => cases harrived
        | advertisement own =>
          by_cases hother : other = c
          · obtain rfl : own = ad := by simpa [arrivedOn, hother] using harrived
            exact hother ▸ hmem
          · simp [arrivedOn, hother] at harrived
      | _ => cases harrived
  · exact fun hmem => ⟨_, hmem, by simp [arrivedOn]⟩

/-- A channel that nobody inside writes to is offered what is sent to it from outside. -/
theorem offeredTo_outside [DecidableEq ι] (hsource : wiring.source c = none)
    (log : List (Report ι)) : offeredTo forms wiring c (effects log) = sentOn c log := by
  unfold offeredTo sentOn
  induction effects log with
  | nil => rfl
  | cons entry rest ih =>
    have hentry : ([entry].filterMap noted).flatMap (offers (speakerNodes forms wiring) c) =
        [entry].filterMap (arrivedOn c) := by
      have hnobody : ∀ i, (speakerNodes forms wiring).source c ≠ some i := by
        intro i
        simp [speakerNodes, hsource]
      obtain ⟨place, effect⟩ := entry
      cases place with
      | some place =>
        cases effect with
        | publish ad => simp [noted, arrivedOn, offers, hnobody]
        | _ => rfl
      | none =>
        cases effect with
        | put other message =>
          cases message with
          | foreign => rfl
          | advertisement ad =>
            by_cases hother : other = c <;> simp [noted, arrivedOn, offers, hother]
        | _ => rfl
    rw [← List.singleton_append, List.filterMap_append, List.filterMap_append,
      List.flatMap_append, hentry, ih]

theorem sealed_of_outside (hsource : wiring.source c = none) {entry : Option ι × Effect}
    (h : Outside c entry) : Sealed wiring entry := by
  obtain ⟨place, effect⟩ := entry
  cases place with
  | some place => exact trivial
  | none =>
    obtain ⟨ad, heffect | heffect⟩ := h rfl
    · obtain rfl : effect = _ := heffect
      exact hsource
    · obtain rfl : effect = _ := heffect
      exact trivial

/-- While every RIB has masks for its clients, no interleaving with a parser panics. -/
theorem Roomy.exists_live [DecidableEq ι] {fromSlice : List UInt8 → Except String RisLiveMessage}
    {state : LiveThreads ι} (h : Roomy state.threads) (events : List (ParserThreads.Event ι)) :
    ∃ reached, ParserThreads.run forms fromSlice state events = .ok reached := by
  induction events generalizing state with
  | nil => exact ⟨_, rfl⟩
  | cons event rest ih =>
    have hstep : ∃ next output,
        ParserThreads.step forms fromSlice state event = .ok (next, output) ∧
        Roomy next.threads := by
      cases event with
      | act i instant =>
        obtain ⟨⟨reached, entry⟩, hact⟩ := @Roomy.exists_moves forms _ _ _ h (.act i instant)
        exact ⟨_, _, Runs.map_eq_ok.mpr ⟨_, hact, rfl⟩, h.moves (moves_of_step hact)⟩
      | parse => exact ⟨_, _, rfl, h.wellFormed, h.clients⟩
      | stream arrived => exact ⟨_, _, rfl, h⟩
    obtain ⟨next, output, hnext, hroomy⟩ := hstep
    obtain ⟨⟨reached, log⟩, hrest⟩ := ih hroomy
    exact ⟨_, Runs.collect_cons_ok.mpr ⟨next, output, log, hnext, hrest, rfl⟩⟩

end Outside

section Deployed
variable {topology : NetworkTopology} {id : Uuid} {inFilter : Interfaces.Filter Advertisement}
  {state : NetworkManager × Supply} {sender : BgpSession} {wiring : Wiring (Uuid × ℕ)}

/-- The parser's thread, and the channel that it has for itself. -/
theorem Fed.feeding (h : Fed topology id inFilter state sender wiring) :
    ∃ c n, sender.outChannel = some c ∧ wiring.target c = some ((id, 0), n) ∧
      wiring.source c = none ∧ Feeding c (.start (addBgpSession .new sender)) [] [] := by
  obtain ⟨c, n, hout, htarget, hsource⟩ := h.joined.parser
  refine ⟨c, n, hout, htarget, hsource, ?_, List.Sublist.refl _⟩
  obtain ⟨back, own, hmade⟩ := h.made
  obtain rfl := Option.some.inj ((outChannel_of_made hmade).symm.trans hout)
  obtain ⟨-, interface, hinterface, made, rfl⟩ := hmade
  exact ⟨sender, _, rfl, hinterface, rfl, fun ad => rfl, rfl⟩

theorem reading_new (sender : BgpSession) : Reading (addBgpSession .new sender) [] [] :=
  ⟨fun _ hline => absurd hline List.not_mem_nil, List.Sublist.refl _⟩

theorem Fed.unstarted (h : Fed topology id inFilter state sender wiring) :
    Unstarted (threadsOf state) := by
  refine ⟨h.initial.untouched, ?_⟩
  intro rib
  obtain ⟨ids, -, hrun⟩ := h.housed.unwritten rib
  exact ⟨ids, hrun⟩

/-- What one thread writes for another goes along an edge. -/
theorem Fed.adjacent (h : Fed topology id inFilter state sender wiring) {place place' : Uuid × ℕ}
    (hfeeds : Feeds (settings (threadsOf state)) place place') :
    Adjacent topology place.1 place'.1 := by
  obtain ⟨c, ⟨setting, port, hsetting, hport, hout⟩, ⟨setting', port', hsetting', hport', hin⟩⟩ :=
    hfeeds
  obtain ⟨m, hm⟩ := portAt_of_mem hsetting hport
  obtain ⟨n, hn⟩ := portAt_of_mem hsetting' hport'
  have hsource := source_of_portAt h.wired hm hout
  have htarget := target_of_portAt h.wired hn hin
  have hother : sender.outChannel ≠ some c := by
    intro hc
    obtain ⟨own, -, hown, -, hnone⟩ := h.joined.parser
    obtain rfl := Option.some.inj (hown.symm.trans hc)
    rw [hnone] at hsource
    cases hsource
  obtain ⟨other, k, hk, hadjacent⟩ := h.joined.only c place' n htarget hother
  obtain ⟨rfl, -⟩ := Prod.mk.inj (Option.some.inj (hsource.symm.trans hk))
  exact hadjacent

/-- What has its origin outside was told by a line of the stream, and comes from the router that the
parser feeds. -/
theorem Fed.line_of_origin {forms : TextForms}
    {fromSlice : List UInt8 → Except String RisLiveMessage}
    {events : List (ParserThreads.Event (Uuid × ℕ))} {reached : LiveThreads (Uuid × ℕ)}
    {log : List (Report (Uuid × ℕ))} {γ : Type*} {tells : Advertisement → γ → Prop} {fact : γ}
    {place : Uuid × ℕ} (h : Fed topology id inFilter state sender wiring)
    (hrun : ParserThreads.run forms fromSlice (liveThreads state (addBgpSession .new sender))
      events = .ok (reached, log))
    (horigin : Origin tells (Arrives (threadsOf state) (effects log))
      (settings (threadsOf state)) place fact) :
    Relation.ReflTransGen (Adjacent topology) id place.1 ∧
      ∃ line ∈ lines log, ∃ ad, decodedLine fromSlice line = some ad ∧
        (inFilter ad).1 = true ∧ tells ad fact := by
  obtain ⟨c, n, hout, htarget, hsource, hfeeding⟩ := Fed.feeding h
  obtain ⟨hsent, houtside⟩ := hfeeding.run hrun
  obtain ⟨first, own, ad, haccepts, harrives, htells, hpath⟩ := horigin
  obtain ⟨setting, port, hsetting, hport, hin, hkeep⟩ := haccepts
  obtain ⟨m, hm⟩ := portAt_of_mem hsetting hport
  have hreads := target_of_portAt h.wired hm hin
  have hput : (none, Effect.put own (.advertisement ad)) ∈ effects log := by
    rcases harrives with hqueued | hput
    · rw [h.initial.empty own _ _ hreads] at hqueued
      exact absurd hqueued List.not_mem_nil
    · exact hput
  have hown : own = c := by
    obtain ⟨other, heffect | heffect⟩ := houtside _ hput rfl
    · exact (Effect.put.inj heffect).1
    · cases heffect
  subst hown
  obtain ⟨rfl, -⟩ := Prod.mk.inj (Option.some.inj (htarget.symm.trans hreads))
  have hdecoded : ad ∈ decoded fromSlice (lines log) :=
    (List.sublist_append_left _ _).trans hsent.sublist |>.subset (mem_sentOn.mpr hput)
  obtain ⟨line, hline, hannounced⟩ := List.mem_filterMap.mp hdecoded
  refine ⟨?_, line, hline, ad, hannounced, ?_, htells⟩
  · exact Relation.ReflTransGen.lift Prod.fst (fun _ _ hfeeds => Fed.adjacent h hfeeds) _ _ hpath
  · rw [← h.filtered own _ port hout hm hin]
    exact hkeep

end Deployed

/-- The network of a topology with a parser at one router, behind a filter that rewrites nothing,
runs without a panic, however the parser, its stream and the routers interleave. What a router has
applied, skipped or still to process is a merge of what its neighbours have published for it and, at
the fed router, of advertisements from complete lines of the stream, in their order and none
twice. -/
theorem merged_live (forms : TextForms) (fromSlice : List UInt8 → Except String RisLiveMessage)
    (uuids : ℕ → Uuid) (ops : List NetworkTopology.Op) (threadManager : ThreadManager)
    (supply : Supply) (hunwritten : ∀ rib, Unwritten (supply.ribs rib))
    (hloops : ∀ edge ∈ (NetworkTopology.build ops).edges, edge.1 ≠ edge.2.1)
    (hfresh : Fresh uuids threadManager.messageBus supply.drawn
      (2 * (NetworkTopology.build ops).vertices.length +
        6 * (NetworkTopology.build ops).edges.length + 4)) (id : Uuid)
    (hid : id ∈ (NetworkTopology.build ops).vertices.map Prod.fst)
    (inFilter : Interfaces.Filter Advertisement) (hkeeps : ∀ ad, (inFilter ad).2 = ad) :
    ∃ made state parser sender c n wiring,
      NetworkManager.fromTopology forms uuids (NetworkTopology.build ops) threadManager supply =
        .ok made ∧
      feedRouter forms uuids made id inFilter = .ok (state, parser) ∧
      Joined (NetworkTopology.build ops) id sender wiring ∧
      sender.outChannel = some c ∧ wiring.target c = some ((id, 0), n) ∧
      ∀ events, ∃ reached log,
        ParserThreads.run forms fromSlice (liveThreads state parser) events = .ok (reached, log) ∧
        Reading reached.parser.parser (lines log) (streamed events) ∧
        ∀ place self, reached.threads.thread place = some self →
          ∃ merge, Merged forms wiring reached.threads (effects log) place self merge ∧
            (place = (id, 0) → (cameOver c merge ++ carried wiring reached.threads c).Sublist
              (decoded fromSlice (lines log))) := by
  obtain ⟨made, state, sender, wiring, hfrom, hfeed, hfed⟩ := @exists_fed forms uuids _ id inFilter
    threadManager supply (NetworkTopology.wellFormed_build ops) hloops hunwritten hfresh hid hkeeps
  obtain ⟨c, n, hout, htarget, hsource, hfeeding⟩ := Fed.feeding hfed
  refine ⟨made, state, _, sender, c, n, wiring, hfrom, hfeed, hfed.joined, hout, htarget, ?_⟩
  intro events
  obtain ⟨⟨reached, log⟩, hrun⟩ := @Roomy.exists_live _ forms _ fromSlice
    (liveThreads state (addBgpSession .new sender)) hfed.housed.roomy events
  obtain ⟨acts, hacts⟩ := threads_run hrun
  obtain ⟨hsent, houtside⟩ := hfeeding.run hrun
  have hsealed : ∀ entry ∈ effects log, Sealed wiring entry :=
    fun entry hentry => sealed_of_outside hsource (houtside entry hentry)
  refine ⟨reached, log, hrun, (reading_new sender).run hrun, ?_⟩
  intro place self hself
  obtain ⟨merge, hmerge, -⟩ := merged_of_initial hfed.initial hfed.wired hacts hsealed hself
  refine ⟨merge, hmerge, ?_⟩
  rintro rfl
  have hordered := hmerge.ordered c n htarget
  rw [offeredTo_outside hsource] at hordered
  exact hordered.trans ((List.sublist_append_left _ _).trans hsent.sublist)

/-- Two routers and an edge between them. -/
def fedEdge : List NetworkTopology.Op :=
  [.addRouter 1 default ⟨.V4 0x0A000001#32, 65001⟩,
    .addConnection 1 2 (SessionConfig.default, SessionConfig.default) 10]

/-- The stream brings the line in two pieces, the parser works, and each router has a cycle. -/
def liveCycle : List (ParserThreads.Event (Uuid × ℕ)) :=
  .parse :: .stream (.deliver (sampleLine.take 20)) :: .stream (.deliver (sampleLine.drop 20)) ::
    (List.replicate 3 .parse ++ (List.replicate 11 (.act (1, 0) ⟨.acquired, 0⟩) ++
      List.replicate 5 (.act (2, 0) ⟨.acquired, 0⟩)))

set_option maxRecDepth 10000 in
theorem exists_liveCycle :
    ∃ made state parser reached log hosted,
      NetworkManager.fromTopology .sample (fun n => BitVec.ofNat 128 n)
        (NetworkTopology.build fedEdge) .new .initial = .ok made ∧
      feedRouter .sample (fun n => BitVec.ofNat 128 n) made 1 ripeHosts = .ok (state, parser) ∧
      ParserThreads.run .sample sampleFromSlice (liveThreads state parser) liveCycle =
        .ok (reached, log) ∧
      handledBy (1, 0) (effects log) = [ofRisLiveData sampleData] ∧
      (reached.threads.thread (1, 0)).isSome = true ∧ hostedAt state.1 (2, 0) = some hosted ∧
      (⟨.V4 0x0A000001#32, .V4 (.around 0x0A000000#32 8), "10.0.0.2", []⟩ : Route) ∈
        (reached.threads.shared.ribs hosted.rib).held 2 (.V4 (.around 0x0A000000#32 8)) :=
  ⟨_, _, _, _, _, _, rfl, rfl, rfl, rfl, rfl, rfl, by decide⟩

theorem fresh_fedEdge :
    Fresh (fun n => BitVec.ofNat 128 n) ThreadManager.new.messageBus Supply.initial.drawn
      (2 * (NetworkTopology.build fedEdge).vertices.length +
        6 * (NetworkTopology.build fedEdge).edges.length + 4) := by
  have hcounts : 2 * (NetworkTopology.build fedEdge).vertices.length +
      6 * (NetworkTopology.build fedEdge).edges.length + 4 = 14 := by decide
  rw [hcounts]
  exact fresh_ofNat (by decide)

theorem merged_live_fedEdge :
    ∃ made state parser reached log self merge wiring c,
      NetworkManager.fromTopology .sample (fun n => BitVec.ofNat 128 n)
        (NetworkTopology.build fedEdge) .new .initial = .ok made ∧
      feedRouter .sample (fun n => BitVec.ofNat 128 n) made 1 ripeHosts = .ok (state, parser) ∧
      ParserThreads.run .sample sampleFromSlice (liveThreads state parser) liveCycle =
        .ok (reached, log) ∧
      handledBy (1, 0) (effects log) = [ofRisLiveData sampleData] ∧
      Merged .sample wiring reached.threads (effects log) (1, 0) self merge ∧
      (cameOver c merge ++ carried wiring reached.threads c).Sublist
        (decoded sampleFromSlice (lines log)) := by
  obtain ⟨made, state, parser, reached, log, hosted, hmade, hfed, hrun, hhandled, hsome, -⟩ :=
    exists_liveCycle
  obtain ⟨made', state', parser', sender, c, n, wiring, hmade', hfed', -, -, -, hlive⟩ :=
    merged_live .sample sampleFromSlice (fun n => BitVec.ofNat 128 n) fedEdge .new .initial
      (fun _ => unwritten_new) (by decide) fresh_fedEdge 1 (by decide) ripeHosts ripeHosts_keeps
  obtain rfl := Except.ok.inj (hmade.symm.trans hmade')
  obtain ⟨rfl, rfl⟩ := Prod.mk.inj (Except.ok.inj (hfed.symm.trans hfed'))
  obtain ⟨reached', log', hrun', -, hmerged⟩ := hlive liveCycle
  obtain ⟨rfl, rfl⟩ := Prod.mk.inj (Except.ok.inj (hrun.symm.trans hrun'))
  obtain ⟨self, hself⟩ := Option.isSome_iff_exists.mp hsome
  obtain ⟨merge, hmerge, hordered⟩ := hmerged _ self hself
  exact ⟨made, state, parser, reached, log, self, merge, wiring, c, hmade, hfed, hrun, hhandled,
    hmerge, hordered rfl⟩

/-- In a network with a parser behind a filter that rewrites nothing, whatever the order of the steps
and whatever is lost, a router holds a prefix with a next hop only if edges lead to it from the fed
router, and a complete line of the stream decodes to an advertisement that its filter lets through
and that announces the prefix with that next hop. -/
theorem held_origin_live (forms : TextForms) (hforms : Reparses forms)
    (fromSlice : List UInt8 → Except String RisLiveMessage) (uuids : ℕ → Uuid)
    (ops : List NetworkTopology.Op) (threadManager : ThreadManager)
    (supply : Supply) (hunwritten : ∀ rib, Unwritten (supply.ribs rib))
    (hloops : ∀ edge ∈ (NetworkTopology.build ops).edges, edge.1 ≠ edge.2.1)
    (hfresh : Fresh uuids threadManager.messageBus supply.drawn
      (2 * (NetworkTopology.build ops).vertices.length +
        6 * (NetworkTopology.build ops).edges.length + 4)) (id : Uuid)
    (hid : id ∈ (NetworkTopology.build ops).vertices.map Prod.fst)
    (inFilter : Interfaces.Filter Advertisement) (hkeeps : ∀ ad, (inFilter ad).2 = ad) :
    ∃ made state parser,
      NetworkManager.fromTopology forms uuids (NetworkTopology.build ops) threadManager supply =
        .ok made ∧
      feedRouter forms uuids made id inFilter = .ok (state, parser) ∧
      ∀ events reached log,
        ParserThreads.run forms fromSlice (liveThreads state parser) events = .ok (reached, log) →
        Reading reached.parser.parser (lines log) (streamed events) ∧
        ∀ place hosted network route, hostedAt state.1 place = some hosted →
          route ∈ (reached.threads.shared.ribs hosted.rib).held place.1 network →
          Relation.ReflTransGen (Adjacent (NetworkTopology.build ops)) id place.1 ∧
            ∃ line ∈ lines log, ∃ ad, decodedLine fromSlice line = some ad ∧
              (inFilter ad).1 = true ∧ Announces forms ad (network, route.nextHop) := by
  obtain ⟨made, state, sender, wiring, hfrom, hfeed, hfed⟩ := @exists_fed forms uuids _ id inFilter
    threadManager supply (NetworkTopology.wellFormed_build ops) hloops hunwritten hfresh hid hkeeps
  refine ⟨made, state, _, hfrom, hfeed, ?_⟩
  intro events reached log hrun
  refine ⟨(reading_new sender).run hrun, ?_⟩
  intro place hosted network route hhosted hheld
  obtain ⟨acts, hacts⟩ := threads_run hrun
  have hfilters := hfed.wired.keeps
  obtain ⟨rfl, source, setting, c, ad, hsetting, hrib, -, haccepts, hcarried, hroute⟩ :=
    (Fed.unstarted hfed).announced hforms hfilters hacts hheld
  have horigin := origin_of_carried hforms hfilters haccepts hcarried hroute
  obtain ⟨self, hself, rfl⟩ := Option.map_eq_some_iff.mp hsetting
  obtain ⟨hosted', hhosted', rfl⟩ := thread_threadsOf hself
  obtain rfl := hfed.housed.own source place hosted' hosted hhosted' hhosted hrib
  obtain ⟨hpath, line, hline, ad, hannounced, hkeep, htells⟩ :=
    Fed.line_of_origin hfed hrun horigin
  exact ⟨hpath, line, hline, ad, hannounced, hkeep, htells⟩

theorem held_origin_live_fedEdge :
    ∃ made state parser reached log hosted line ad,
      NetworkManager.fromTopology .sample (fun n => BitVec.ofNat 128 n)
        (NetworkTopology.build fedEdge) .new .initial = .ok made ∧
      feedRouter .sample (fun n => BitVec.ofNat 128 n) made 1 ripeHosts = .ok (state, parser) ∧
      ParserThreads.run .sample sampleFromSlice (liveThreads state parser) liveCycle =
        .ok (reached, log) ∧ hostedAt state.1 (2, 0) = some hosted ∧
      (⟨.V4 0x0A000001#32, .V4 (.around 0x0A000000#32 8), "10.0.0.2", []⟩ : Route) ∈
        (reached.threads.shared.ribs hosted.rib).held 2 (.V4 (.around 0x0A000000#32 8)) ∧
      Relation.ReflTransGen (Adjacent (NetworkTopology.build fedEdge)) 1 2 ∧ line ∈ lines log ∧
      decodedLine sampleFromSlice line = some ad ∧ (ripeHosts ad).1 = true ∧
      Announces .sample ad (.V4 (.around 0x0A000000#32 8), "10.0.0.2") := by
  obtain ⟨made, state, parser, reached, log, hosted, hmade, hfed, hrun, -, -, hhosted, hheld⟩ :=
    exists_liveCycle
  obtain ⟨made', state', parser', hmade', hfed', hlive⟩ :=
    held_origin_live .sample reparses_sample sampleFromSlice (fun n => BitVec.ofNat 128 n) fedEdge
      .new .initial (fun _ => unwritten_new) (by decide) fresh_fedEdge 1 (by decide) ripeHosts
      ripeHosts_keeps
  obtain rfl := Except.ok.inj (hmade.symm.trans hmade')
  obtain ⟨rfl, rfl⟩ := Prod.mk.inj (Except.ok.inj (hfed.symm.trans hfed'))
  obtain ⟨-, horigin⟩ := hlive liveCycle reached log hrun
  obtain ⟨hpath, line, hline, ad, hdecoded, hkeep, htells⟩ :=
    horigin (2, 0) hosted _ _ hhosted hheld
  exact ⟨made, state, parser, reached, log, hosted, line, ad, hmade, hfed, hrun, hhosted, hheld,
    hpath, hline, hdecoded, hkeep, htells⟩

end NetfabricBgp.LiveNetworks
