import NetfabricBgp.ParserThreads

/-!
Runs of a parser's thread beside those of a network. For the network the parser is outside: what
it puts on its channel arrives there. And what it puts there are advertisements of the lines that it
has handed to the decoder, in their order and none twice.
-/
namespace NetfabricBgp.ParserRuns

open RouterMasks Advertisements BoundedQueues Channels Interfaces Sessions Processes StateMachines
  LinkThreads LiveParsers LiveBgpParser LineDeliveries SessionBatches ProcessThreads ThreadSteps
  ParserThreads

section Rounds
variable {fromSlice : List UInt8 → Except String RisLiveMessage} {self self' : ParserThread}
  {links links' : Links} {n : ℕ} {interface : Interface} {ad : Advertisement}
  {rest : List Advertisement} {effect : Option Effect} {shown : Option Shown}

/-- What a round of the loop of `send` does. -/
inductive Rounds (self : ParserThread) (n : ℕ) (interface : Interface) (links : Links)
    (ad : Advertisement) (rest : List Advertisement) :
    Links → ParserThread → Option Effect → Prop
  | filterOut (hkeep : (interface.outFilter ad).1 = false) :
      Rounds self n interface links ad rest links (self.atPosition (.sending n rest)) none
  | unset (hout : interface.outChannel = none) :
      Rounds self n interface links ad rest links (self.atPosition (.send (n + 1))) none
  | put (id : ChannelId) (channel : Channel) (hkeep : (interface.outFilter ad).1 = true)
      (hout : interface.outChannel = some id)
      (hsend : (links id).trySend (.advertisement (interface.outFilter ad).2) = .ok channel) :
      Rounds self n interface links ad rest (Function.update links id channel)
        (self.atPosition (.sending n rest))
        (some (.put id (.advertisement (interface.outFilter ad).2)))
  | refuse (id : ChannelId) (e : TrySendError) (hout : interface.outChannel = some id)
      (hsend : (links id).trySend (.advertisement (interface.outFilter ad).2) = .error e) :
      Rounds self n interface links ad rest links (self.atPosition (.send (n + 1)))
        (some (.refuse id (.advertisement (interface.outFilter ad).2)))

theorem rounds_of_sendRound
    (h : self.sendRound n interface links ad rest = (links', self', effect)) :
    Rounds self n interface links ad rest links' self' effect := by
  unfold ParserThread.sendRound at h
  by_cases hkeep : (interface.outFilter ad).1 = true
  · cases hout : interface.outChannel with
    | none =>
      simp only [hkeep, if_true, hout, Prod.mk.injEq] at h
      obtain ⟨rfl, rfl, rfl⟩ := h
      exact .unset hout
    | some id =>
      cases hsend : (links id).trySend (.advertisement (interface.outFilter ad).2) with
      | ok channel =>
        simp only [hkeep, if_true, hout, hsend, Prod.mk.injEq] at h
        obtain ⟨rfl, rfl, rfl⟩ := h
        exact .put id channel hkeep hout hsend
      | error e =>
        simp only [hkeep, if_true, hout, hsend, Prod.mk.injEq] at h
        obtain ⟨rfl, rfl, rfl⟩ := h
        exact .refuse id e hout hsend
  · simp only [hkeep, Bool.false_eq_true, if_false, Prod.mk.injEq] at h
    obtain ⟨rfl, rfl, rfl⟩ := h
    exact .filterOut (by simpa using hkeep)

/-- The advertisements of the parser in the buffer of an interface. -/
def filled (self : ParserThread) (interface : Interface) : Interface :=
  (interface.pushOutgoingAdvertisements self.parser.advertisements).1

/-- A step that ends with these channels and this thread, and shows this. -/
inductive Parses (fromSlice : List UInt8 → Except String RisLiveMessage) (links : Links)
    (self : ParserThread) : Links → ParserThread → Option Shown → Prop
  | started (parser : LiveBgpParser UInt8) (hposition : self.position = .work)
      (hensure : self.parser.ensureStream = .ok parser) :
      Parses fromSlice links self links ⟨parser, .process⟩ none
  | unstarted (text : String) (hposition : self.position = .work) :
      Parses fromSlice links self links (.failed self.parser text) none
  | processed (parser : LiveBgpParser UInt8) (handed : List (List UInt8))
      (hposition : self.position = .process)
      (hbuffer : LiveBgpParser.processBuffer id fromSlice self.parser = (.ok (), parser, handed)) :
      Parses fromSlice links self links ⟨parser, .send 0⟩ (some (.lines handed))
  | unprocessed (e : BgpParserError) (text : String) (parser : LiveBgpParser UInt8)
      (handed : List (List UInt8)) (hposition : self.position = .process)
      (hbuffer : LiveBgpParser.processBuffer id fromSlice self.parser =
        (.error e, parser, handed)) :
      Parses fromSlice links self links (.failed parser text) (some (.lines handed))
  | sendUnset (n : ℕ) (hposition : self.position = .send n) (hat : self.interfaceAt n = none)
      (hlt : n < self.parser.bgpSessions.length) :
      Parses fromSlice links self links (self.atPosition (.send (n + 1))) none
  | sendNothing (n : ℕ) (interface : Interface) (hposition : self.position = .send n)
      (hat : self.interfaceAt n = some interface)
      (hnothing : (filled self interface).outgoingAdvertisements.items = [] ∨
        interface.outChannel = none) :
      Parses fromSlice links self links
        ((self.setInterface n (filled self interface)).atPosition (.send (n + 1))) none
  | sendBegin (n : ℕ) (interface : Interface) (hposition : self.position = .send n)
      (hat : self.interfaceAt n = some interface) (hout : interface.outChannel ≠ none) :
      Parses fromSlice links self links
        ((self.setInterface n (emptied (filled self interface))).atPosition
          (.sending n (filled self interface).outgoingAdvertisements.items)) none
  | sendDone (n : ℕ) (hposition : self.position = .send n)
      (hlen : self.parser.bgpSessions.length ≤ n) :
      Parses fromSlice links self links
        ⟨{ self.parser with advertisements := [] }, .work⟩ none
  | sendingDone (n : ℕ) (rest : List Advertisement) (hposition : self.position = .sending n rest)
      (hrest : rest = [] ∨ self.interfaceAt n = none) :
      Parses fromSlice links self links (self.atPosition (.send (n + 1))) none
  | round (n : ℕ) (interface : Interface) (ad : Advertisement) (rest : List Advertisement)
      (links' : Links) (self' : ParserThread) (effect : Option Effect)
      (hposition : self.position = .sending n (ad :: rest))
      (hat : self.interfaceAt n = some interface)
      (hround : Rounds self n interface links ad rest links' self' effect) :
      Parses fromSlice links self links' self' (effect.map .effect)
  | stopped (hposition : self.position = .stopped) : Parses fromSlice links self links self none

theorem beginSend_nothing (hlt : n < self.parser.bgpSessions.length)
    (hat : self.interfaceAt n = some interface)
    (hnothing : (filled self interface).outgoingAdvertisements.items = [] ∨
      (filled self interface).outChannel = none) :
    self.beginSend n =
      (self.setInterface n (filled self interface)).atPosition (.send (n + 1)) := by
  have hbegin := begin_send_nothing hnothing
  unfold filled at hbegin
  unfold ParserThread.beginSend filled
  rw [if_pos hlt]
  simp only [hat, hbegin]

theorem beginSend_loop (hlt : n < self.parser.bgpSessions.length)
    (hat : self.interfaceAt n = some interface)
    (hsome : (filled self interface).outgoingAdvertisements.items ≠ [])
    (hout : (filled self interface).outChannel ≠ none) :
    self.beginSend n =
      (self.setInterface n (emptied (filled self interface))).atPosition
        (.sending n (filled self interface).outgoingAdvertisements.items) := by
  have hbegin := begin_send_loop hsome hout
  unfold filled at hbegin
  unfold ParserThread.beginSend filled
  rw [if_pos hlt]
  simp only [hat, hbegin]

theorem parses_beginSend (hposition : self.position = .send n) :
    Parses fromSlice links self links (self.beginSend n) none := by
  by_cases hlt : n < self.parser.bgpSessions.length
  · cases hat : self.interfaceAt n with
    | none =>
      unfold ParserThread.beginSend
      rw [if_pos hlt, hat]
      exact .sendUnset n hposition hat hlt
    | some interface =>
      have hfilled : (filled self interface).outChannel = interface.outChannel :=
        Interface.pushOutgoingAdvertisements_outChannel _
      by_cases hnothing : (filled self interface).outgoingAdvertisements.items = [] ∨
        (filled self interface).outChannel = none
      · rw [beginSend_nothing hlt hat hnothing]
        rw [hfilled] at hnothing
        exact .sendNothing n interface hposition hat hnothing
      · obtain ⟨hsome, hout⟩ := not_or.mp hnothing
        rw [beginSend_loop hlt hat hsome hout]
        rw [hfilled] at hout
        exact .sendBegin n interface hposition hat hout
  · unfold ParserThread.beginSend
    rw [if_neg hlt]
    exact .sendDone n hposition (Nat.le_of_not_lt hlt)

theorem parses_of_step (h : self.step fromSlice links = (links', self', shown)) :
    Parses fromSlice links self links' self' shown := by
  unfold ParserThread.step at h
  cases hposition : self.position with
  | work =>
    cases hensure : self.parser.ensureStream with
    | error e =>
      simp only [hposition, hensure, Prod.mk.injEq] at h
      obtain ⟨rfl, rfl, rfl⟩ := h
      exact .unstarted _ hposition
    | ok parser =>
      simp only [hposition, hensure, Prod.mk.injEq] at h
      obtain ⟨rfl, rfl, rfl⟩ := h
      exact .started parser hposition hensure
  | process =>
    rcases hbuffer : LiveBgpParser.processBuffer id fromSlice self.parser with
      ⟨e | _, parser, handed⟩
    · simp only [hposition, hbuffer, Prod.mk.injEq] at h
      obtain ⟨rfl, rfl, rfl⟩ := h
      exact .unprocessed e _ parser handed hposition hbuffer
    · simp only [hposition, hbuffer, Prod.mk.injEq] at h
      obtain ⟨rfl, rfl, rfl⟩ := h
      exact .processed parser handed hposition hbuffer
  | send n =>
    simp only [hposition, Prod.mk.injEq] at h
    obtain ⟨rfl, rfl, rfl⟩ := h
    exact parses_beginSend hposition
  | sending n ads =>
    cases ads with
    | nil =>
      simp only [hposition, Prod.mk.injEq] at h
      obtain ⟨rfl, rfl, rfl⟩ := h
      exact .sendingDone n [] hposition (Or.inl rfl)
    | cons ad rest =>
      cases hat : self.interfaceAt n with
      | none =>
        simp only [hposition, hat, Prod.mk.injEq] at h
        obtain ⟨rfl, rfl, rfl⟩ := h
        exact .sendingDone n (ad :: rest) hposition (Or.inr hat)
      | some interface =>
        rcases hround : self.sendRound n interface links ad rest with ⟨links'', self'', effect⟩
        simp only [hposition, hat, hround, Prod.mk.injEq] at h
        obtain ⟨rfl, rfl, rfl⟩ := h
        exact .round n interface ad rest _ _ effect hposition hat (rounds_of_sendRound hround)
  | stopped =>
    simp only [hposition, Prod.mk.injEq] at h
    obtain ⟨rfl, rfl, rfl⟩ := h
    exact .stopped hposition

end Rounds

section Outside
variable {forms : TextForms} {fromSlice : List UInt8 → Except String RisLiveMessage} {ι : Type*}
  [DecidableEq ι] {threads : Threads ι} {self self' : ParserThread} {links' : Links}
  {shown : Option Shown}

/-- For the network, a step of the parser is nothing, or a message that arrives. -/
theorem arrives_of_parses
    (h : Parses fromSlice threads.shared.links self links' self' shown) :
    ∃ events, ProcessThreads.run forms threads events =
      .ok (⟨threads.thread, { threads.shared with links := links' }⟩,
        effects (shown.map (Shown.report ι)).toList) := by
  have hquiet : ∃ events, ProcessThreads.run forms threads events = .ok (threads, []) :=
    ⟨[], rfl⟩
  cases h with
  | round n interface ad rest links' self' effect hposition hat hround =>
    cases hround with
    | filterOut hkeep => exact hquiet
    | unset hout => exact hquiet
    | put id channel hkeep hout hsend =>
      refine ⟨[.arrive id (.advertisement (interface.outFilter ad).2)], ?_⟩
      simp only [ProcessThreads.run, Runs.collect, ProcessThreads.step, hsend]
      rfl
    | refuse id e hout hsend =>
      refine ⟨[.arrive id (.advertisement (interface.outFilter ad).2)], ?_⟩
      simp only [ProcessThreads.run, Runs.collect, ProcessThreads.step, hsend]
      rfl
  | _ => exact hquiet

end Outside

/-- What the parser has still to put on the channel of its session: the rest of a batch that is
being sent, and what has been decoded for the next one. -/
def unsent (self : ParserThread) : List Advertisement :=
  match self.position with
  | .send (_ + 1) => []
  | .sending _ rest => rest
  | _ => self.parser.advertisements

/-- What arrived on a channel from outside. -/
def arrivedOn {ι : Type*} (c : ChannelId) : Option ι × Effect → Option Advertisement
  | (none, .put other (.advertisement ad)) => if other = c then some ad else none
  | _ => none

/-- What was put on a channel from outside in a run. -/
def sentOn {ι : Type*} (c : ChannelId) (log : List (Report ι)) : List Advertisement :=
  (effects log).filterMap (arrivedOn c)

/-- The advertisement of a line, if it decodes to one. -/
def decodedLine (fromSlice : List UInt8 → Except String RisLiveMessage) (line : List UInt8) :
    Option Advertisement :=
  announced id fromSlice line

/-- The advertisements of some lines. -/
def decoded (fromSlice : List UInt8 → Except String RisLiveMessage) (lines : List (List UInt8)) :
    List Advertisement :=
  lines.filterMap (decodedLine fromSlice)

/-- From outside only advertisements come, and only to the channel. -/
def Outside {ι : Type*} (c : ChannelId) (entry : Option ι × Effect) : Prop :=
  entry.1 = none → ∃ ad, entry.2 = .put c (.advertisement ad) ∨
    entry.2 = .refuse c (.advertisement ad)

theorem effects_append {ι : Type*} (log log' : List (Report ι)) :
    effects (log ++ log') = effects log ++ effects log' := List.filterMap_append

theorem lines_append {ι : Type*} (log log' : List (Report ι)) :
    lines (log ++ log') = lines log ++ lines log' :=
  List.flatMap_append

theorem decoded_append (fromSlice : List UInt8 → Except String RisLiveMessage)
    (before after : List (List UInt8)) :
    decoded fromSlice (before ++ after) = decoded fromSlice before ++ decoded fromSlice after :=
  List.filterMap_append

theorem sentOn_append {ι : Type*} (c : ChannelId) (log log' : List (Report ι)) :
    sentOn c (log ++ log') = sentOn c log ++ sentOn c log' := by
  unfold sentOn
  rw [effects_append, List.filterMap_append]

/-- The parser has one session, to the channel, whose interface lets everything through. -/
def Serves (c : ChannelId) (parser : LiveBgpParser UInt8) : Prop :=
  ∃ session interface, parser.bgpSessions = [session] ∧ session.interface = some interface ∧
    interface.outChannel = some c ∧ (∀ ad, interface.outFilter ad = (true, ad)) ∧
    interface.outgoingAdvertisements.items = []

/-- What the parser has sent and has still to send is from these decoded advertisements. -/
structure Feeding (c : ChannelId) (thread : ParserThread) (sent decoded : List Advertisement) :
    Prop where
  serves : Serves c thread.parser
  sublist : (sent ++ unsent thread).Sublist decoded

section Sending
variable {fromSlice : List UInt8 → Except String RisLiveMessage} {self self' : ParserThread}
  {parser parser' : LiveBgpParser UInt8} {links links' : Links} {shown : Option Shown}
  {c : ChannelId} {sent past : List Advertisement}

theorem Serves.of_sessions (h : Serves c parser)
    (hsame : parser'.bgpSessions = parser.bgpSessions) : Serves c parser' := by
  obtain ⟨session, interface, hsessions, hinterface⟩ := h
  exact ⟨session, interface, hsame.trans hsessions, hinterface⟩

theorem Serves.at_zero (h : Serves c self.parser) {n : ℕ} {interface : Interface}
    (hat : self.interfaceAt n = some interface) :
    n = 0 ∧ interface.outChannel = some c ∧ (∀ ad, interface.outFilter ad = (true, ad)) ∧
      interface.outgoingAdvertisements.items = [] := by
  obtain ⟨session, own, hsessions, hinterface, hout⟩ := h
  unfold ParserThread.interfaceAt at hat
  rw [hsessions] at hat
  cases n with
  | zero =>
    obtain rfl := Option.some.inj (hinterface.symm.trans hat)
    exact ⟨rfl, hout⟩
  | succ n => cases hat

theorem Serves.setInterface (h : Serves c self.parser) {interface : Interface}
    (hout : interface.outChannel = some c) (hpasses : ∀ ad, interface.outFilter ad = (true, ad))
    (hempty : interface.outgoingAdvertisements.items = []) :
    Serves c (self.setInterface 0 interface).parser := by
  obtain ⟨session, own, hsessions, -⟩ := h
  refine ⟨session.withInterface interface, interface, ?_, rfl, hout, hpasses, hempty⟩
  show self.parser.bgpSessions.modify 0 _ = _
  rw [hsessions]
  rfl

/-- The buffer takes as much of the batch as it has room for. -/
theorem filled_sublist {interface : Interface} (hout : interface.outChannel = some c)
    (hempty : interface.outgoingAdvertisements.items = []) :
    (filled self interface).outgoingAdvertisements.items.Sublist self.parser.advertisements ∧
      (filled self interface).outChannel = some c ∧
      (filled self interface).outFilter = interface.outFilter := by
  have hsome : ¬ interface.outChannel.isNone = true := by
    rw [hout]
    exact Bool.false_ne_true
  unfold filled
  rw [Interface.pushOutgoingAdvertisements_of_some hsome]
  refine ⟨?_, hout, rfl⟩
  simp only [Bounded.extend, hempty, List.nil_append]
  exact List.take_sublist _ _

theorem Feeding.still (h : Feeding c self sent past) (hserves : Serves c self'.parser)
    (hunsent : (unsent self').Sublist (unsent self)) :
    Feeding c self' (sent ++ []) (past ++ []) := by
  refine ⟨hserves, ?_⟩
  rw [List.append_nil, List.append_nil]
  exact (List.Sublist.append_left hunsent sent).trans h.sublist

theorem Feeding.decode (h : Feeding c self sent past) (hserves : Serves c self'.parser)
    {more : List Advertisement} (hunsent : unsent self' = unsent self ++ more) :
    Feeding c self' (sent ++ []) (past ++ more) := by
  refine ⟨hserves, ?_⟩
  rw [List.append_nil, hunsent, ← List.append_assoc]
  exact List.Sublist.append_right h.sublist more

theorem parser_of_failed (parser : LiveBgpParser UInt8) (text : String) :
    (ParserThread.failed parser text).parser = parser.fail text ∧
      unsent (ParserThread.failed parser text) = parser.advertisements := by
  have hsame : (parser.fail text).restartPolicy = parser.restartPolicy := rfl
  unfold ParserThread.failed onError
  cases hpolicy : parser.restartPolicy with
  | StopOnError =>
    simp only [hsame, hpolicy, true_and]
    rfl
  | RestartOnError =>
    simp only [hsame, hpolicy, true_and]
    rfl

/-- The buffer's lines join what is to be sent. -/
theorem processed_unsent {result : Except BgpParserError Unit} {handed : List (List UInt8)}
    (hposition : self.position = .process)
    (hbuffer : LiveBgpParser.processBuffer id fromSlice self.parser = (result, parser, handed)) :
    parser.bgpSessions = self.parser.bgpSessions ∧
      parser.advertisements = unsent self ++ decoded fromSlice handed := by
  have hadvances := @processBuffer_advances _ id fromSlice self.parser
  rw [hbuffer] at hadvances
  refine ⟨hadvances.sessions, ?_⟩
  unfold unsent
  rw [hposition]
  exact hadvances.advertisements

/-- A step sends what was to be sent, loses some of it, or decodes more. -/
theorem Feeding.parses (h : Feeding c self sent past) (ι : Type*)
    (hparses : Parses fromSlice links self links' self' shown) :
    Feeding c self' (sent ++ sentOn c (shown.map (Shown.report ι)).toList)
      (past ++ decoded fromSlice (lines (shown.map (Shown.report ι)).toList)) := by
  have hkept : Serves c self.parser := h.serves
  cases hparses with
  | started parser hposition hensure =>
    obtain ⟨hads, -, hsessions⟩ := agree_ensureStream hensure
    refine h.still (hkept.of_sessions hsessions) ?_
    unfold unsent
    rw [hposition]
    exact hads ▸ List.Sublist.refl _
  | unstarted text hposition =>
    obtain ⟨hfailed, hunsent⟩ := parser_of_failed self.parser text
    have hkeeps := congrArg LiveBgpParser.bgpSessions hfailed
    refine h.still (hkept.of_sessions hkeeps) ?_
    rw [hunsent]
    unfold unsent
    rw [hposition]
  | processed parser handed hposition hbuffer =>
    obtain ⟨hsessions, hads⟩ := processed_unsent hposition hbuffer
    have hhanded : lines ((some (Shown.lines handed)).map (Shown.report ι)).toList = handed :=
      List.append_nil handed
    rw [hhanded]
    exact h.decode (hkept.of_sessions hsessions) hads
  | unprocessed e text parser handed hposition hbuffer =>
    obtain ⟨hsessions, hads⟩ := processed_unsent hposition hbuffer
    obtain ⟨hfailed, hunsent⟩ := parser_of_failed parser text
    have hhanded : lines ((some (Shown.lines handed)).map (Shown.report ι)).toList = handed :=
      List.append_nil handed
    rw [hhanded]
    have hkeeps := (congrArg LiveBgpParser.bgpSessions hfailed).trans hsessions
    exact h.decode (hkept.of_sessions hkeeps) (hunsent.trans hads)
  | sendUnset n hposition hat hlt => exact h.still hkept (List.nil_sublist _)
  | sendNothing n interface hposition hat hnothing =>
    obtain ⟨rfl, hout, hpasses, hempty⟩ := hkept.at_zero hat
    obtain ⟨-, hfilled, hfilter⟩ := @filled_sublist self c interface hout hempty
    have hnone : ¬ interface.outChannel = none := by
      rw [hout]
      exact Option.some_ne_none c
    refine h.still (hkept.setInterface hfilled ?_ (hnothing.resolve_right hnone))
      (List.nil_sublist _)
    rw [hfilter]
    exact hpasses
  | sendBegin n interface hposition hat hout' =>
    obtain ⟨rfl, hout, hpasses, hempty⟩ := hkept.at_zero hat
    obtain ⟨hbatch, hfilled, hfilter⟩ := @filled_sublist self c interface hout hempty
    have hserves : Serves c (self.setInterface 0 (emptied (filled self interface))).parser := by
      refine hkept.setInterface hfilled ?_ rfl
      show ∀ ad, (filled self interface).outFilter ad = (true, ad)
      rw [hfilter]
      exact hpasses
    refine h.still hserves ?_
    have hads : unsent self = self.parser.advertisements := by
      unfold unsent
      rw [hposition]
    rw [hads]
    exact hbatch
  | sendDone n hposition hlen => exact h.still (hkept.of_sessions rfl) (List.nil_sublist _)
  | sendingDone n rest hposition hrest => exact h.still hkept (List.nil_sublist _)
  | round n interface ad rest links' self' effect hposition hat hround =>
    obtain ⟨rfl, hout, hpasses, -⟩ := hkept.at_zero hat
    have hads : unsent self = ad :: rest := by
      unfold unsent
      rw [hposition]
    cases hround with
    | filterOut hkeep =>
      rw [hpasses] at hkeep
      cases hkeep
    | unset hnone =>
      rw [hnone] at hout
      cases hout
    | put id channel hkeep hown hsend =>
      obtain rfl := Option.some.inj (hown.symm.trans hout)
      refine ⟨hkept, ?_⟩
      have hsublist := h.sublist
      rw [hads] at hsublist
      rw [hpasses]
      show (sent ++ sentOn id _ ++ rest).Sublist (past ++ [])
      simpa [sentOn, effects, Shown.report, Report.entry, arrivedOn] using hsublist
    | refuse id e hown hsend => exact h.still hkept (List.nil_sublist _)
  | stopped hposition => exact h.still hkept (List.Sublist.refl _)

/-- What a step shows on a channel it shows on that of the session. -/
theorem Serves.outside (h : Serves c self.parser) {ι : Type*}
    (hparses : Parses fromSlice links self links' self' shown) :
    ∀ entry ∈ effects (shown.map (Shown.report ι)).toList, Outside c entry := by
  cases hparses with
  | round n interface ad rest links' self' effect hposition hat hround =>
    obtain ⟨-, hout, -⟩ := h.at_zero hat
    cases hround with
    | put id channel hkeep hown hsend =>
      obtain rfl := Option.some.inj (hown.symm.trans hout)
      rintro entry hentry -
      obtain rfl := List.mem_singleton.mp hentry
      exact ⟨_, Or.inl rfl⟩
    | refuse id e hown hsend =>
      obtain rfl := Option.some.inj (hown.symm.trans hout)
      rintro entry hentry -
      obtain rfl := List.mem_singleton.mp hentry
      exact ⟨_, Or.inr rfl⟩
    | _ => exact fun entry hentry => absurd hentry List.not_mem_nil
  | _ => exact fun entry hentry => absurd hentry List.not_mem_nil

theorem Feeding.stream (h : Feeding c self sent past) (event : StreamEvent UInt8) :
    Feeding c (self.stream event) sent past := by
  obtain ⟨hads, -, hsessions⟩ := agree_streamStep self.parser event
  refine ⟨h.serves.of_sessions hsessions, ?_⟩
  have hunsent : unsent (self.stream event) = unsent self := by
    unfold unsent ParserThread.stream
    rw [hads]
  rw [hunsent]
  exact h.sublist

end Sending

/-- What the parser has received and not yet handed to the decoder. -/
def waiting (parser : LiveBgpParser UInt8) : List UInt8 :=
  parser.bytesBuffer ++ (parser.byteStreamReceiver.getD []).flatten

def brought : StreamEvent UInt8 → List UInt8
  | .deliver bytes => bytes
  | .finish => []

def bytesOf {ι : Type*} : ParserThreads.Event ι → List UInt8
  | .stream event => brought event
  | _ => []

/-- The bytes that the stream brings. -/
def streamed {ι : Type*} (events : List (ParserThreads.Event ι)) : List UInt8 :=
  events.flatMap bytesOf

/-- The lines that were handed to the decoder are complete, and with what is waiting they are from
these bytes. -/
structure Reading (parser : LiveBgpParser UInt8) (handed : List (List UInt8))
    (bytes : List UInt8) : Prop where
  complete : ∀ line ∈ handed, LineFraming.IsLine (isNewline id) line
  sublist : (handed.flatten ++ waiting parser).Sublist bytes

section Bytes
variable {fromSlice : List UInt8 → Except String RisLiveMessage} {self self' : ParserThread}
  {parser parser' : LiveBgpParser UInt8} {links links' : Links} {shown : Option Shown}
  {handed more : List (List UInt8)} {bytes : List UInt8}

theorem Reading.still (h : Reading parser handed bytes)
    (hwaiting : (waiting parser').Sublist (waiting parser)) :
    Reading parser' (handed ++ []) bytes := by
  rw [List.append_nil]
  exact ⟨h.complete, (List.Sublist.append_left hwaiting _).trans h.sublist⟩

theorem waiting_ensureStream (h : self.parser.ensureStream = .ok parser) :
    (waiting parser).Sublist (waiting self.parser) := by
  unfold ensureStream startStream at h
  by_cases hrunning : self.parser.isRunning = true
  · rw [if_pos hrunning] at h
    obtain rfl := Except.ok.inj h
    exact List.Sublist.refl _
  · rw [if_neg hrunning] at h
    obtain rfl := Except.ok.inj h
    exact List.Sublist.append_left (List.nil_sublist _) _

/-- A failure drops what was waiting. -/
theorem waiting_failed (parser : LiveBgpParser UInt8) (text : String) :
    waiting (ParserThread.failed parser text).parser = [] := by
  rw [(parser_of_failed parser text).1]
  rfl

theorem Reading.processed (h : Reading self.parser handed bytes)
    {result : Except BgpParserError Unit}
    (hbuffer : LiveBgpParser.processBuffer id fromSlice self.parser = (result, parser, more)) :
    Reading parser (handed ++ more) bytes := by
  cases hreceiver : self.parser.byteStreamReceiver with
  | none =>
    simp only [processBuffer, hreceiver, Prod.mk.injEq] at hbuffer
    obtain ⟨-, rfl, rfl⟩ := hbuffer
    exact h.still (List.Sublist.refl _)
  | some chunks =>
    have hspec := @processBuffer_spec _ id fromSlice _ _ hreceiver
    rw [hbuffer, drain_eq] at hspec
    have hbytes : more.flatten ++ waiting parser = waiting self.parser := by
      have hcut : more.flatten ++ parser.bytesBuffer = self.parser.bytesBuffer ++ chunks.flatten :=
        hspec.bytes
      have htaken : parser.byteStreamReceiver = some [] := hspec.receiver
      unfold waiting
      rw [htaken, hreceiver, ← List.append_assoc, hcut]
      exact List.append_nil _
    refine ⟨?_, ?_⟩
    · intro line hline
      rcases List.mem_append.mp hline with hline | hline
      · exact h.complete line hline
      · exact hspec.complete line hline
    · rw [List.flatten_append, List.append_assoc, hbytes]
      exact h.sublist

theorem Reading.parses (h : Reading self.parser handed bytes) (ι : Type*)
    (hparses : Parses fromSlice links self links' self' shown) :
    Reading self'.parser (handed ++ lines (shown.map (Shown.report ι)).toList) bytes := by
  have hlines : ∀ more, lines ((some (Shown.lines more)).map (Shown.report ι)).toList = more :=
    fun more => List.append_nil more
  cases hparses with
  | started parser hposition hensure => exact h.still (waiting_ensureStream hensure)
  | unstarted text hposition =>
    refine h.still ?_
    rw [waiting_failed]
    exact List.nil_sublist _
  | processed parser more hposition hbuffer =>
    rw [hlines]
    exact h.processed hbuffer
  | unprocessed e text parser more hposition hbuffer =>
    rw [hlines]
    have hwaiting : (waiting (ParserThread.failed parser text).parser).Sublist
        (waiting parser) := by
      rw [waiting_failed]
      exact List.nil_sublist _
    have hfailed := (h.processed hbuffer).still hwaiting
    rwa [List.append_nil] at hfailed
  | round n interface ad rest links' self' effect hposition hat hround =>
    cases hround <;> exact h.still (List.Sublist.refl _)
  | _ => exact h.still (List.Sublist.refl _)

/-- The task of the stream brings its bytes, or they are lost. -/
theorem Reading.stream (h : Reading parser handed bytes) (event : StreamEvent UInt8) :
    Reading (parser.streamStep event) handed (bytes ++ brought event) := by
  refine ⟨h.complete, ?_⟩
  have hwaiting : (waiting (parser.streamStep event)).Sublist
      (waiting parser ++ brought event) := by
    unfold streamStep
    rcases parser.streamHandle with _ | ⟨_ | _⟩
    · exact List.sublist_append_left _ _
    · cases event with
      | finish => exact List.sublist_append_left _ _
      | deliver bytes =>
        unfold waiting
        cases parser.byteStreamReceiver with
        | none => exact List.sublist_append_left _ _
        | some chunks => simp [brought]
    · exact List.sublist_append_left _ _
  have hall := (List.Sublist.append_left hwaiting handed.flatten)
  rw [← List.append_assoc] at hall
  exact hall.trans (List.Sublist.append_right h.sublist _)

end Bytes

section Running
variable {forms : TextForms} {fromSlice : List UInt8 → Except String RisLiveMessage} {ι : Type*}
  [DecidableEq ι] {state state' : LiveThreads ι} {event : ParserThreads.Event ι}
  {output : Option (Report ι)} {events : List (ParserThreads.Event ι)} {log : List (Report ι)}
  {c : ChannelId} {sent past : List Advertisement}

/-- What an event can be: a step of a thread of the network, a step of the parser, or something
that the stream brings. -/
theorem step_cases (h : ParserThreads.step forms fromSlice state event = .ok (state', output)) :
    (∃ i instant reached entry,
      ProcessThreads.step forms state.threads (.act i instant) = .ok (reached, entry) ∧
        state' = ⟨reached, state.parser⟩ ∧ output = entry.map .effect) ∨
    (∃ links parser shown,
      Parses fromSlice state.threads.shared.links state.parser links parser shown ∧
        state' = ⟨⟨state.threads.thread, { state.threads.shared with links := links }⟩, parser⟩ ∧
        output = shown.map (Shown.report ι)) ∨
    ∃ arrived, state' = ⟨state.threads, state.parser.stream arrived⟩ ∧ output = none := by
  cases event with
  | act i instant =>
    obtain ⟨⟨reached, entry⟩, hstep, heq⟩ := Runs.map_eq_ok.mp h
    obtain ⟨rfl, rfl⟩ := Prod.mk.inj heq
    exact Or.inl ⟨i, instant, reached, entry, hstep, rfl, rfl⟩
  | parse =>
    rcases hparse : state.parser.step fromSlice state.threads.shared.links with
      ⟨links, parser, shown⟩
    simp only [ParserThreads.step, hparse, Except.ok.injEq, Prod.mk.injEq] at h
    obtain ⟨rfl, rfl⟩ := h
    exact Or.inr (Or.inl ⟨links, parser, shown, parses_of_step hparse, rfl, rfl⟩)
  | stream arrived =>
    obtain ⟨rfl, rfl⟩ := Prod.mk.inj (Except.ok.inj h)
    exact Or.inr (Or.inr ⟨arrived, rfl, rfl⟩)

/-- The effects of a step of a thread are not from outside. -/
theorem inside_of_act {threads reached : Threads ι} {i : ι} {instant : Instant}
    {entry : Option (Option ι × Effect)}
    (h : ProcessThreads.step forms threads (.act i instant) = .ok (reached, entry)) :
    effects (entry.map Report.effect).toList = entry.toList ∧ ∀ done ∈ entry, done.1 = some i := by
  refine ⟨by cases entry <;> rfl, ?_⟩
  have hmoves := moves_of_step h
  cases hthread : threads.thread i with
  | none =>
    simp only [ProcessThreads.step, hthread, Except.ok.injEq, Prod.mk.injEq] at h
    obtain ⟨-, rfl⟩ := h
    exact fun done hdone => by cases hdone
  | some self =>
    obtain ⟨self', effect, -, -, rfl⟩ := act_cases hthread hmoves
    intro done hdone
    obtain ⟨own, -, rfl⟩ := Option.map_eq_some_iff.mp hdone
    rfl

theorem threads_run
    (h : ParserThreads.run forms fromSlice state events = .ok (state', log)) :
    ∃ acts, ProcessThreads.run forms state.threads acts = .ok (state'.threads, effects log) := by
  induction events generalizing state log with
  | nil =>
    obtain ⟨rfl, rfl⟩ := Prod.mk.inj (Except.ok.inj h)
    exact ⟨[], rfl⟩
  | cons event rest ih =>
    obtain ⟨next, output, later, hstep, hrest, rfl⟩ := Runs.collect_cons_ok.mp h
    obtain ⟨acts, hacts⟩ := ih hrest
    have hnow : ∃ first, ProcessThreads.run forms state.threads first =
        .ok (next.threads, effects output.toList) := by
      rcases step_cases hstep with ⟨i, instant, reached, entry, hact, rfl, rfl⟩ |
        ⟨links, parser, shown, hparses, rfl, rfl⟩ | ⟨arrived, rfl, rfl⟩
      · refine ⟨[.act i instant], ?_⟩
        rw [(inside_of_act hact).1]
        exact Runs.collect_cons_ok.mpr ⟨reached, entry, [], hact, rfl, (List.append_nil _).symm⟩
      · exact arrives_of_parses hparses
      · exact ⟨[], rfl⟩
    obtain ⟨first, hfirst⟩ := hnow
    rw [effects_append]
    exact ⟨first ++ acts, run_append hfirst hacts⟩

theorem Feeding.step (h : Feeding c state.parser sent past)
    (hstep : ParserThreads.step forms fromSlice state event = .ok (state', output)) :
    Feeding c state'.parser (sent ++ sentOn c output.toList)
        (past ++ decoded fromSlice (lines output.toList)) ∧
      ∀ entry ∈ effects output.toList, Outside c entry := by
  rcases step_cases hstep with ⟨i, instant, reached, entry, hact, rfl, rfl⟩ |
    ⟨links, parser, shown, hparses, rfl, rfl⟩ | ⟨arrived, rfl, rfl⟩
  · obtain ⟨heffects, hinside⟩ := inside_of_act hact
    have hnone : sentOn c (entry.map Report.effect).toList = [] := by
      unfold sentOn
      rw [heffects, List.filterMap_eq_nil_iff]
      rintro ⟨place, done⟩ hmem
      obtain rfl : place = some i := hinside _ (Option.mem_toList.mp hmem)
      rfl
    have hlines : lines (entry.map Report.effect).toList = [] := by cases entry <;> rfl
    refine ⟨?_, ?_⟩
    · rw [hnone, hlines, List.append_nil]
      simpa [decoded] using h
    · intro done hdone hplace
      rw [heffects] at hdone
      rw [hinside done (Option.mem_toList.mp hdone)] at hplace
      cases hplace
  · exact ⟨h.parses ι hparses, h.serves.outside hparses⟩
  · refine ⟨?_, fun entry hentry => absurd hentry List.not_mem_nil⟩
    simpa [sentOn, effects, lines, decoded] using h.stream arrived

/-- Whatever else happens, what has come from the parser onto its channel is from the lines that
it has handed to the decoder, in their order, and nothing else has come from outside. -/
theorem Feeding.run (h : Feeding c state.parser sent past)
    (hrun : ParserThreads.run forms fromSlice state events = .ok (state', log)) :
    Feeding c state'.parser (sent ++ sentOn c log) (past ++ decoded fromSlice (lines log)) ∧
      ∀ entry ∈ effects log, Outside c entry := by
  induction events generalizing state log sent past with
  | nil =>
    obtain ⟨rfl, rfl⟩ := Prod.mk.inj (Except.ok.inj hrun)
    refine ⟨?_, fun entry hentry => absurd hentry List.not_mem_nil⟩
    simpa [sentOn, effects, lines, decoded] using h
  | cons event rest ih =>
    obtain ⟨next, output, later, hstep, hrest, rfl⟩ := Runs.collect_cons_ok.mp hrun
    obtain ⟨hnow, houtside⟩ := h.step hstep
    obtain ⟨hfeeding, hlater⟩ := ih hnow hrest
    rw [sentOn_append, lines_append, decoded_append, ← List.append_assoc, ← List.append_assoc,
      effects_append]
    refine ⟨hfeeding, ?_⟩
    intro entry hentry
    rcases List.mem_append.mp hentry with hentry | hentry
    · exact houtside entry hentry
    · exact hlater entry hentry

/-- Whatever else happens, the parser hands complete lines of the stream to the decoder, in their
order. -/
theorem Reading.run {handed : List (List UInt8)} {bytes : List UInt8}
    (h : Reading state.parser.parser handed bytes)
    (hrun : ParserThreads.run forms fromSlice state events = .ok (state', log)) :
    Reading state'.parser.parser (handed ++ lines log) (bytes ++ streamed events) := by
  induction events generalizing state log handed bytes with
  | nil =>
    obtain ⟨rfl, rfl⟩ := Prod.mk.inj (Except.ok.inj hrun)
    simpa [lines, streamed] using h
  | cons event rest ih =>
    obtain ⟨next, output, later, hstep, hrest, rfl⟩ := Runs.collect_cons_ok.mp hrun
    have hnow : Reading next.parser.parser (handed ++ lines output.toList)
        (bytes ++ bytesOf event) := by
      cases event with
      | act i instant =>
        obtain ⟨⟨reached, entry⟩, -, heq⟩ := Runs.map_eq_ok.mp hstep
        obtain ⟨rfl, rfl⟩ := Prod.mk.inj heq
        have hlines : lines (entry.map Report.effect).toList = [] := by cases entry <;> rfl
        rw [hlines]
        simpa [bytesOf] using h
      | parse =>
        rcases hparse : state.parser.step fromSlice state.threads.shared.links with
          ⟨links, parser, shown⟩
        simp only [ParserThreads.step, hparse, Except.ok.injEq, Prod.mk.injEq] at hstep
        obtain ⟨rfl, rfl⟩ := hstep
        simpa [bytesOf] using h.parses ι (parses_of_step hparse)
      | stream arrived =>
        obtain ⟨rfl, rfl⟩ := Prod.mk.inj (Except.ok.inj hstep)
        have hstream := h.stream arrived
        simpa [lines, ParserThread.stream, bytesOf] using hstream
    have hlater := ih hnow hrest
    rw [lines_append, ← List.append_assoc]
    rw [List.append_assoc bytes] at hlater
    exact hlater

end Running

end NetfabricBgp.ParserRuns
