import NetfabricBgp.ParserRuns
import NetfabricBgp.ThreadCycles

/-!
The steps of a parser's thread, interrupted by nothing but the task of its stream, are its `work`.
So whatever the parser and the routers of a network do one whole `work` after the other, their
threads can do step by step, on the same bytes and with the same lines handed to the decoder.
-/
namespace NetfabricBgp.ParserCycles

open RouterMasks Advertisements Channels Interfaces Sessions Processes Supplies StateMachines
  LinkThreads Networks QuietNetworks LiveParsers LiveBgpParser LineDeliveries SessionBatches
  ProcessThreads ThreadSteps ThreadCycles ParserThreads ParserRuns

/-- The lines that a step hands to the decoder. -/
def linesOf : Option Shown → List (List UInt8)
  | some (.lines handed) => handed
  | _ => []

/-- Some uninterrupted steps of a parser lead there, and hand these lines to the decoder. -/
inductive Leads (fromSlice : List UInt8 → Except String RisLiveMessage) :
    Links × ParserThread → Links × ParserThread → List (List UInt8) → Prop
  | refl (state : Links × ParserThread) : Leads fromSlice state state []
  | step {links links' : Links} {self self' : ParserThread} {shown : Option Shown}
      {next : Links × ParserThread} {handed : List (List UInt8)}
      (hstep : self.step fromSlice links = (links', self', shown))
      (hrest : Leads fromSlice (links', self') next handed) :
      Leads fromSlice (links, self) next (linesOf shown ++ handed)

section Leading
variable {fromSlice : List UInt8 → Except String RisLiveMessage}
  {state next last : Links × ParserThread} {handed handed' : List (List UInt8)}
  {links links' : Links} {self self' : ParserThread}

theorem Leads.trans (h : Leads fromSlice state next handed)
    (h' : Leads fromSlice next last handed') : Leads fromSlice state last (handed ++ handed') := by
  induction h with
  | refl state => exact h'
  | step hstep hrest ih =>
    rw [List.append_assoc]
    exact .step hstep (ih h')

/-- A step that shows no lines. -/
theorem Leads.quiet (shown : Option Shown) (hlines : linesOf shown = [])
    (hstep : self.step fromSlice links = (links', self', shown))
    (hrest : Leads fromSlice (links', self') next handed) :
    Leads fromSlice (links, self) next handed := by
  have hleads := Leads.step hstep hrest
  rwa [hlines, List.nil_append] at hleads

end Leading

section Sending
variable {fromSlice : List UInt8 → Except String RisLiveMessage} {links : Links}
  {self : ParserThread} {n : ℕ} {interface : Interface} {id : ChannelId}
  {before rest : List BgpSession} {session : BgpSession}

/-- A thread whose parser has other sessions. -/
def withSessions (self : ParserThread) (sessions : List BgpSession) : ParserThread :=
  { self with parser := { self.parser with bgpSessions := sessions } }

theorem interfaceAt_length (h : self.parser.bgpSessions = before ++ session :: rest) :
    self.interfaceAt before.length = session.interface := by
  unfold ParserThread.interfaceAt
  rw [sessionAt_length h]
  rfl

theorem setInterface_length (h : self.parser.bgpSessions = before ++ session :: rest)
    (interface : Interface) :
    self.setInterface before.length interface =
      withSessions self (before ++ session.withInterface interface :: rest) := by
  unfold ParserThread.setInterface withSessions
  rw [modifySession_length h]

/-- The rounds of the loop of `send` are the loop. -/
theorem leads_sending (ads : List Advertisement) (hposition : self.position = .sending n ads)
    (hat : self.interfaceAt n = some interface) (hout : interface.outChannel = some id) :
    Leads fromSlice (links, self)
      (Function.update links id (sendLoop interface.outFilter (links id) ads),
        self.atPosition (.send (n + 1))) [] := by
  induction ads generalizing links self with
  | nil =>
    have hstep : self.step fromSlice links = (links, self.atPosition (.send (n + 1)), none) := by
      simp [ParserThread.step, hposition]
    refine Leads.quiet none rfl hstep ?_
    rw [sendLoop, Function.update_eq_self]
    exact .refl _
  | cons ad ads ih =>
    by_cases hkeep : (interface.outFilter ad).1 = true
    · cases hsend : (links id).trySend (.advertisement (interface.outFilter ad).2) with
      | ok channel =>
        have hrest := @ih (Function.update links id channel) (self.atPosition (.sending n ads)) rfl
          hat
        have hstep : self.step fromSlice links = (Function.update links id channel,
            self.atPosition (.sending n ads),
            some (.effect (.put id (.advertisement (interface.outFilter ad).2)))) := by
          simp [ParserThread.step, hposition, hat, ParserThread.sendRound, hkeep, hout, hsend]
        refine Leads.quiet _ rfl hstep ?_
        simpa [sendLoop, hkeep, hsend, ParserThread.atPosition] using hrest
      | error e =>
        have hstep : self.step fromSlice links = (links, self.atPosition (.send (n + 1)),
            some (.effect (.refuse id (.advertisement (interface.outFilter ad).2)))) := by
          simp [ParserThread.step, hposition, hat, ParserThread.sendRound, hkeep, hout, hsend]
        refine Leads.quiet _ rfl hstep ?_
        simp only [sendLoop, hkeep, if_true, hsend, Function.update_eq_self]
        exact .refl _
    · have hstep : self.step fromSlice links =
          (links, self.atPosition (.sending n ads), none) := by
        simp [ParserThread.step, hposition, hat, ParserThread.sendRound, hkeep]
      have hrest := @ih links (self.atPosition (.sending n ads)) rfl hat
      refine Leads.quiet none rfl hstep ?_
      simpa [sendLoop, hkeep, ParserThread.atPosition] using hrest

/-- The thread after a session's `send`. -/
def afterSend (self : ParserThread) (before rest : List BgpSession) (session : BgpSession) :
    ParserThread :=
  (withSessions self (before ++ session :: rest)).atPosition (.send (before.length + 1))

theorem leads_send (h : self.parser.bgpSessions = before ++ session :: rest)
    (hposition : self.position = .send before.length) :
    Leads fromSlice (links, self)
      ((session.send self.parser.advertisements links).1,
        afterSend self before rest (session.send self.parser.advertisements links).2.1) [] := by
  have hlt := lt_length h
  have hat := interfaceAt_length h
  have hbegin : self.step fromSlice links = (links, self.beginSend before.length, none) := by
    simp [ParserThread.step, hposition]
  cases hinterface : session.interface with
  | none =>
    rw [hinterface] at hat
    have hsend : session.send self.parser.advertisements links =
        (links, session, .error .InterfaceNotSet) := by
      rw [BgpSession.send, hinterface]
    have hnext : self.beginSend before.length = afterSend self before rest session := by
      unfold afterSend withSessions
      rw [← h]
      simp [ParserThread.beginSend, hlt, hat]
    rw [hsend, ← hnext]
    exact Leads.quiet _ rfl hbegin (.refl _)
  | some interface =>
    rw [hinterface] at hat
    obtain ⟨result, hsend⟩ := BgpSession.send_of_interface hinterface self.parser.advertisements
      links
    rw [hsend]
    let pushed := filled self interface
    have hafter : ∀ interface',
        afterSend self before rest { session with interface := some interface' } =
          (self.setInterface before.length interface').atPosition (.send (before.length + 1)) := by
      intro interface'
      rw [setInterface_length h]
      rfl
    show Leads fromSlice (links, self) ((pushed.send links).1,
      afterSend self before rest { session with interface := some (pushed.send links).2 }) []
    rw [hafter]
    refine Leads.quiet _ rfl hbegin ?_
    by_cases hnothing : pushed.outgoingAdvertisements.items = [] ∨ pushed.outChannel = none
    · have hsame : pushed.send links = (links, pushed) := by
        unfold Interface.send
        by_cases hnil : pushed.outgoingAdvertisements.items = []
        · rw [if_pos hnil]
        · rw [if_neg hnil, hnothing.resolve_left hnil]
      rw [beginSend_nothing hlt hat hnothing, hsame]
      exact .refl _
    · obtain ⟨hsome, hout⟩ := not_or.mp hnothing
      obtain ⟨id, hid⟩ := Option.ne_none_iff_exists'.mp hout
      let next := (self.setInterface before.length (emptied pushed)).atPosition
        (.sending before.length pushed.outgoingAdvertisements.items)
      have hnext : self.beginSend before.length = next := beginSend_loop hlt hat hsome hout
      have hat' : next.interfaceAt before.length = some (emptied pushed) := by
        refine @interfaceAt_length next before rest (session.withInterface (emptied pushed)) ?_
        show (self.setInterface before.length (emptied pushed)).parser.bgpSessions = _
        rw [setInterface_length h]
        rfl
      have hloop := @leads_sending fromSlice links next _ _ id _ rfl hat' hid
      have hsent : pushed.send links = (Function.update links id
          (sendLoop pushed.outFilter (links id) pushed.outgoingAdvertisements.items),
            emptied pushed) := by
        simp [Interface.send, hsome, hid, emptied]
      rw [hnext, hsent]
      exact hloop

/-- The `send` calls of all sessions, from one of them on. -/
theorem leads_sendSessions (h : self.parser.bgpSessions = before ++ rest)
    (hposition : self.position = .send before.length) :
    Leads fromSlice (links, self)
      ((sendSessions self.parser.advertisements links rest).1,
        ⟨{ self.parser with
            bgpSessions := before ++ (sendSessions self.parser.advertisements links rest).2
            advertisements := [] }, .work⟩) [] := by
  induction rest generalizing before links self with
  | nil =>
    have hstep : self.step fromSlice links =
        (links, ⟨{ self.parser with advertisements := [] }, .work⟩, none) := by
      have hlen : ¬ before.length < self.parser.bgpSessions.length := by
        rw [h, List.append_nil]
        exact Nat.lt_irrefl _
      simp [ParserThread.step, hposition, ParserThread.beginSend, hlen]
    refine Leads.quiet _ rfl hstep ?_
    simp only [sendSessions]
    rw [← h]
    exact .refl _
  | cons session rest ih =>
    have hfirst := @leads_send fromSlice links self before rest session h hposition
    rcases hsend : session.send self.parser.advertisements links with ⟨links', session', result⟩
    rw [hsend] at hfirst
    have hsessions : (afterSend self before rest session').parser.bgpSessions =
        (before ++ [session']) ++ rest := by
      rw [List.append_assoc]
      rfl
    have hlen : (before ++ [session']).length = before.length + 1 := by
      rw [List.length_append, List.length_singleton]
    have hrest := @ih links' (afterSend self before rest session') (before ++ [session']) hsessions
      (by rw [hlen]; rfl)
    refine hfirst.trans ?_
    simp only [sendSessions, hsend]
    simpa [afterSend, withSessions, ParserThread.atPosition] using hrest

end Sending

/-- The thread after a `work` that returned this. -/
def afterWork (parser : LiveBgpParser UInt8) :
    StateTransition (LiveBgpParser UInt8) → ParserThread
  | .Stop => ⟨parser, .stopped⟩
  | _ => ⟨parser, .work⟩

section Working
variable {fromSlice : List UInt8 → Except String RisLiveMessage} {links : Links}
  {self : ParserThread}

theorem failed_eq (parser : LiveBgpParser UInt8) (text : String) :
    ParserThread.failed parser text =
      afterWork (parser.fail text) (onError (parser.fail text)) := by
  unfold ParserThread.failed afterWork
  cases herror : onError (parser.fail text) <;> simp only [herror]

/-- The second half of `work`. -/
theorem leads_deliverAll (hposition : self.position = .process) :
    Leads fromSlice (links, self)
      ((deliverAll id fromSlice links self.parser).1,
        afterWork (deliverAll id fromSlice links self.parser).2.1
          (deliverAll id fromSlice links self.parser).2.2.1)
      (deliverAll id fromSlice links self.parser).2.2.2 := by
  unfold deliverAll
  rcases hbuffer : processBuffer id fromSlice self.parser with ⟨e | _, parser, handed⟩
  · have hstep : self.step fromSlice links = (links, ParserThread.failed parser
        ("Couldn't process buffer! " ++ e.message ++
          ". Timeout for 1 sec to give routers time to catch up."), some (.lines handed)) := by
      simp [ParserThread.step, hposition, hbuffer]
    rw [failed_eq] at hstep
    have hleads := Leads.step hstep (.refl _)
    rwa [List.append_nil] at hleads
  · have hstep : self.step fromSlice links =
        (links, ⟨parser, .send 0⟩, some (.lines handed)) := by
      simp [ParserThread.step, hposition, hbuffer]
    have hsends := @leads_sendSessions fromSlice links ⟨parser, .send 0⟩ [] parser.bgpSessions rfl
      rfl
    have hleads := Leads.step hstep hsends
    rwa [List.append_nil] at hleads

end Working

def arrived {ι : Type*} : ParserThreads.Event ι → Option (StreamEvent UInt8)
  | .stream event => some event
  | _ => none

/-- What the stream brings in some events. -/
def broughtIn {ι : Type*} (events : List (ParserThreads.Event ι)) : List (StreamEvent UInt8) :=
  events.filterMap arrived

theorem broughtIn_append {ι : Type*} (events events' : List (ParserThreads.Event ι)) :
    broughtIn (events ++ events') = broughtIn events ++ broughtIn events' :=
  List.filterMap_append

theorem broughtIn_streams {ι : Type*} (during : List (StreamEvent UInt8)) :
    broughtIn (during.map (ParserThreads.Event.stream : _ → ParserThreads.Event ι)) = during := by
  induction during with
  | nil => rfl
  | cons event rest ih => exact congrArg (event :: ·) ih

theorem broughtIn_parses {ι : Type*} (n : ℕ) :
    broughtIn (List.replicate n (.parse : ParserThreads.Event ι)) = [] := by
  induction n with
  | zero => rfl
  | succ n ih => exact ih

/-- What can be seen of a run: where it ends, and what was handed to the decoder. -/
def seen {ι : Type*} (result : Except Panic (LiveThreads ι × List (Report ι))) :
    Except Panic (LiveThreads ι × List (List UInt8)) :=
  result.map (fun reached => (reached.1, lines reached.2))

theorem seen_ok {ι : Type*} {result : Except Panic (LiveThreads ι × List (Report ι))}
    {next : LiveThreads ι} {handed : List (List UInt8)} :
    seen result = .ok (next, handed) ↔ ∃ log, result = .ok (next, log) ∧ lines log = handed := by
  unfold seen
  rw [Runs.map_eq_ok]
  constructor
  · rintro ⟨⟨reached, log⟩, hresult, heq⟩
    obtain ⟨rfl, hlines⟩ := Prod.mk.inj heq
    exact ⟨log, hresult, hlines⟩
  · rintro ⟨log, hresult, rfl⟩
    exact ⟨(next, log), hresult, rfl⟩

section Running
variable {forms : TextForms} {fromSlice : List UInt8 → Except String RisLiveMessage} {ι : Type*}
  [DecidableEq ι]

/-- The network with these channels, and its parser's thread. -/
def beside (threads : Threads ι) (reached : Links × ParserThread) : LiveThreads ι :=
  ⟨⟨threads.thread, { threads.shared with links := reached.1 }⟩, reached.2⟩

theorem run_leads {start next : Links × ParserThread} {handed : List (List UInt8)}
    (h : Leads fromSlice start next handed) (threads : Threads ι) :
    ∃ n log, ParserThreads.run forms fromSlice (beside threads start) (List.replicate n .parse) =
      .ok (beside threads next, log) ∧ lines log = handed := by
  induction h with
  | refl state => exact ⟨0, [], rfl, rfl⟩
  | @step links links' self self' shown next handed hstep hrest ih =>
    obtain ⟨n, log, hrun, rfl⟩ := ih
    refine ⟨n + 1, (shown.map (Shown.report ι)).toList ++ log, ?_, ?_⟩
    · rw [List.replicate_succ]
      refine Runs.collect_cons_ok.mpr ⟨beside threads (links', self'), _, log, ?_, hrun, rfl⟩
      simp only [ParserThreads.step, beside, hstep]
    · rw [lines_append]
      congr 1
      rcases shown with _ | ⟨_ | handed⟩
      · rfl
      · rfl
      · exact List.append_nil handed

theorem run_streams (threads : Threads ι) (links : Links) (self : ParserThread)
    (during : List (StreamEvent UInt8)) :
    ParserThreads.run forms fromSlice (beside threads (links, self)) (during.map .stream) =
      .ok (beside threads (links, { self with parser := during.foldl streamStep self.parser }),
        []) := by
  induction during generalizing self with
  | nil => rfl
  | cons event rest ih =>
    exact Runs.collect_cons_ok.mpr ⟨beside threads (links, self.stream event), none, [], rfl,
      ih (self.stream event), rfl⟩

/-- A `work` of the parser, in which its stream brings something. -/
theorem run_work (threads : Threads ι) (links : Links) (parser : LiveBgpParser UInt8)
    (during : List (StreamEvent UInt8)) :
    ∃ events log, ParserThreads.run forms fromSlice (beside threads (links, .start parser)) events =
        .ok (beside threads ((LiveBgpParser.work id fromSlice during links parser).1,
          afterWork (LiveBgpParser.work id fromSlice during links parser).2.1
            (LiveBgpParser.work id fromSlice during links parser).2.2.1), log) ∧
      lines log = (LiveBgpParser.work id fromSlice during links parser).2.2.2 ∧
      broughtIn events = during := by
  obtain ⟨started, hstart⟩ := exists_ensureStream parser
  have hwork : LiveBgpParser.work id fromSlice during links parser =
      deliverAll id fromSlice links (during.foldl streamStep started) := by
    simp only [LiveBgpParser.work, hstart]
  rw [hwork]
  have hfirst : ParserThreads.step forms fromSlice (beside threads (links, .start parser))
      .parse = .ok (beside threads (links, ⟨started, .process⟩), none) := by
    simp [ParserThreads.step, beside, ParserThread.step, ParserThread.start, hstart]
  have hstreams := @run_streams forms fromSlice _ _ threads links ⟨started, .process⟩ during
  obtain ⟨n, log, hrun, hlines⟩ := @run_leads forms fromSlice _ _ _ _ _
    (@leads_deliverAll fromSlice links ⟨during.foldl streamStep started, .process⟩ rfl) threads
  refine ⟨.parse :: (during.map .stream ++ List.replicate n .parse), log, ?_, hlines, ?_⟩
  · refine Runs.collect_cons_ok.mpr ⟨_, none, log, hfirst, ?_, rfl⟩
    exact Runs.collect_append_ok hstreams hrun
  · show broughtIn (during.map .stream ++ List.replicate n .parse) = during
    rw [broughtIn_append, broughtIn_streams, broughtIn_parses, List.append_nil]

theorem seen_append {state middle : LiveThreads ι} {earlier : List (ParserThreads.Event ι)}
    {handed : List (List UInt8)}
    (h : seen (ParserThreads.run forms fromSlice state earlier) = .ok (middle, handed))
    (later : List (ParserThreads.Event ι)) :
    seen (ParserThreads.run forms fromSlice state (earlier ++ later)) =
      (seen (ParserThreads.run forms fromSlice middle later)).map
        (fun reached => (reached.1, handed ++ reached.2)) := by
  obtain ⟨log, hrun, rfl⟩ := seen_ok.mp h
  unfold ParserThreads.run at hrun ⊢
  rw [Runs.collect_append, hrun]
  rcases hlater : Runs.collect (ParserThreads.step forms fromSlice) middle later with
    panic | reached
  · simp only [hlater, seen, Except.map]
  · simp only [hlater, seen, Except.map, lines_append]

/-- Nothing happens after a panic. -/
theorem seen_append_error {state : LiveThreads ι} {earlier : List (ParserThreads.Event ι)}
    {panic : Panic} (h : seen (ParserThreads.run forms fromSlice state earlier) = .error panic)
    (later : List (ParserThreads.Event ι)) :
    seen (ParserThreads.run forms fromSlice state (earlier ++ later)) = .error panic := by
  unfold seen ParserThreads.run at h ⊢
  rw [Runs.collect_append]
  rcases hrun : Runs.collect (ParserThreads.step forms fromSlice) state earlier with e | reached
  · rw [hrun] at h
    exact h
  · rw [hrun] at h
    cases h

/-- The steps of other threads, beside the parser. -/
theorem run_others {events : List (ProcessThreads.Event ι)} (hacts : OnlyActs events)
    (threads : Threads ι) (parser : ParserThread) :
    ∃ own, seen (ParserThreads.run forms fromSlice ⟨threads, parser⟩ own) =
        (Runs.run (advance forms) threads events).map (fun reached => (⟨reached, parser⟩, [])) ∧
      broughtIn own = [] := by
  induction events generalizing threads with
  | nil => exact ⟨[], rfl, rfl⟩
  | cons event rest ih =>
    obtain ⟨i, instant, rfl⟩ := hacts event List.mem_cons_self
    have hothers : OnlyActs rest := fun later hlater => hacts later (List.mem_cons_of_mem _ hlater)
    rw [Runs.run_cons]
    rcases hstep : ProcessThreads.step forms threads (.act i instant) with panic | ⟨reached, entry⟩
    · refine ⟨[.act i instant], ?_, rfl⟩
      simp [seen, ParserThreads.run, Runs.collect, ParserThreads.step, advance, hstep, Except.map]
    · obtain ⟨own, hseen, hbrought⟩ := ih hothers reached
      have hfirst : seen (ParserThreads.run forms fromSlice ⟨threads, parser⟩
          [.act i instant]) = .ok (⟨reached, parser⟩, []) := by
        refine seen_ok.mpr ⟨(entry.map Report.effect).toList ++ [], ?_, ?_⟩
        · exact Runs.collect_cons_ok.mpr ⟨⟨reached, parser⟩, _, [],
            Runs.map_eq_ok.mpr ⟨(reached, entry), hstep, rfl⟩, rfl, rfl⟩
        · cases entry <;> rfl
      refine ⟨[.act i instant] ++ own, ?_, hbrought⟩
      have hadvance : advance forms threads (.act i instant) = .ok reached := by
        unfold advance
        rw [hstep]
        rfl
      rw [seen_append hfirst, hseen, hadvance]
      rcases hrest : Runs.run (advance forms) reached rest with panic | last
      · simp only [hrest, Except.map]
      · simp only [hrest, Except.map, List.append_nil]

end Running

/-- A network and its parser, between their cycles. -/
structure LiveNetwork where
  network : NetworkManager × Supply
  parser : LiveBgpParser UInt8
  stopped : Bool

/-- A router works, the parser works while its stream brings something, or only the stream does. -/
inductive LiveTurn
  | router (turn : Turn)
  | parser (during : List (StreamEvent UInt8))
  | stream (event : StreamEvent UInt8)

def LiveTurn.brought : LiveTurn → List (StreamEvent UInt8)
  | .router _ => []
  | .parser during => during
  | .stream event => [event]

def isStop {σ : Type*} : StateTransition σ → Bool
  | .Stop => true
  | _ => false

namespace LiveNetwork

/-- The network after a turn, and the lines that were handed to the decoder. Once it has stopped,
the parser works no more. -/
def take (forms : TextForms) (fromSlice : List UInt8 → Except String RisLiveMessage)
    (self : LiveNetwork) : LiveTurn → Except Panic (LiveNetwork × Option (List (List UInt8)))
  | .router turn =>
    (workAt forms self.network turn).map (fun network => ({ self with network := network }, none))
  | .parser during =>
    if self.stopped then .ok ({ self with parser := during.foldl streamStep self.parser }, none)
    else
      let (links, parser, transition, handed) :=
        LiveBgpParser.work id fromSlice during self.network.2.links self.parser
      .ok (⟨(self.network.1, { self.network.2 with links := links }), parser, isStop transition⟩,
        some handed)
  | .stream event => .ok ({ self with parser := self.parser.streamStep event }, none)

/-- Each process and the parser in a thread of its own. -/
def threads (self : LiveNetwork) : LiveThreads (Uuid × ℕ) :=
  ⟨threadsOf self.network, ⟨self.parser, if self.stopped then .stopped else .work⟩⟩

end LiveNetwork

section Turns
variable {forms : TextForms} {fromSlice : List UInt8 → Except String RisLiveMessage}
  {state state' : LiveNetwork} {turn : LiveTurn} {handed : Option (List (List UInt8))}

theorem afterWork_eq (parser : LiveBgpParser UInt8)
    (transition : StateTransition (LiveBgpParser UInt8)) :
    afterWork parser transition =
      ⟨parser, if isStop transition then .stopped else .work⟩ := by
  cases transition <;> rfl

/-- A turn, step by step. -/
theorem run_take (forms : TextForms) (fromSlice : List UInt8 → Except String RisLiveMessage)
    (state : LiveNetwork) (turn : LiveTurn) :
    ∃ events, seen (ParserThreads.run forms fromSlice state.threads events) =
        (state.take forms fromSlice turn).map
          (fun reached => (reached.1.threads, reached.2.getD [])) ∧
      broughtIn events = turn.brought := by
  cases turn with
  | router turn =>
    obtain ⟨acts, hacts, hrun⟩ := @run_workAt forms state.network turn
    obtain ⟨events, hseen, hbrought⟩ := @run_others forms fromSlice _ _ acts hacts
      (threadsOf state.network) state.threads.parser
    refine ⟨events, ?_, hbrought⟩
    rw [hrun] at hseen
    refine hseen.trans ?_
    simp only [LiveNetwork.take]
    cases workAt forms state.network turn <;> rfl
  | parser during =>
    simp only [LiveNetwork.take]
    by_cases hstopped : state.stopped = true
    · rw [if_pos hstopped]
      have hstreams := @run_streams forms fromSlice _ _ (threadsOf state.network)
        state.network.2.links state.threads.parser during
      exact ⟨during.map .stream, seen_ok.mpr ⟨[], hstreams, rfl⟩, broughtIn_streams during⟩
    · rw [if_neg hstopped]
      obtain ⟨events, log, hrun, hlines, hbrought⟩ := @run_work forms fromSlice _ _
        (threadsOf state.network) state.network.2.links state.parser during
      have hstart : state.threads = beside (threadsOf state.network)
          (state.network.2.links, .start state.parser) := by
        unfold LiveNetwork.threads
        rw [if_neg hstopped]
        rfl
      rw [afterWork_eq] at hrun
      rw [hstart]
      exact ⟨events, seen_ok.mpr ⟨log, hrun, hlines⟩, hbrought⟩
  | stream event =>
    have hstream := @run_streams forms fromSlice _ _ (threadsOf state.network)
      state.network.2.links state.threads.parser [event]
    exact ⟨[.stream event], seen_ok.mpr ⟨[], hstream, rfl⟩, rfl⟩

/-- Whatever the parser and the routers of a network do one whole `work` after the other, their
threads can do step by step: with the same state or the same panic at the end, on the same bytes,
and with the same lines handed to the decoder. -/
theorem turns_live (forms : TextForms) (fromSlice : List UInt8 → Except String RisLiveMessage)
    (state : LiveNetwork) (turns : List LiveTurn) :
    ∃ events, seen (ParserThreads.run forms fromSlice state.threads events) =
        (Runs.collect (LiveNetwork.take forms fromSlice) state turns).map
          (fun reached => (reached.1.threads, reached.2.flatten)) ∧
      broughtIn events = turns.flatMap LiveTurn.brought := by
  induction turns generalizing state with
  | nil => exact ⟨[], rfl, rfl⟩
  | cons turn rest ih =>
    obtain ⟨events, hseen, hbrought⟩ := run_take forms fromSlice state turn
    rw [Runs.collect_cons, List.flatMap_cons]
    rcases hturn : state.take forms fromSlice turn with panic | ⟨next, handed⟩
    · -- the stream goes on when a router has panicked
      rw [hturn] at hseen
      refine ⟨events ++ (rest.flatMap LiveTurn.brought).map .stream,
        seen_append_error hseen _, ?_⟩
      rw [broughtIn_append, hbrought, broughtIn_streams]
    · rw [hturn] at hseen
      obtain ⟨events', hseen', hbrought'⟩ := ih next
      refine ⟨events ++ events', ?_, ?_⟩
      · rw [seen_append hseen, hseen']
        rcases hlater : Runs.collect (LiveNetwork.take forms fromSlice) next rest with
          panic | reached
        · simp only [hlater, Except.map]
        · cases handed <;> simp [hlater, Except.map]
      · rw [broughtIn_append, hbrought, hbrought']

end Turns

end NetfabricBgp.ParserCycles
