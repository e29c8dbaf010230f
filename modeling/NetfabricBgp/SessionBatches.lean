import NetfabricBgp.LineDeliveries

/-!
The batches that the live parser passes to its sessions. A cycle that fails keeps the
advertisements parsed before the failure, and the next cycle that succeeds passes them to
all sessions together with its own, so each parsed advertisement is in one batch of every
session or still pending.
-/
namespace NetfabricBgp.SessionBatches

open Advertisements Channels Sessions Processes StateMachines Loops LiveParsers LiveBgpParser
  LineDeliveries

/-- A session with the batches that were passed to its `send`. -/
structure Recorded where
  session : BgpSession
  batches : List (List Advertisement)

def Recorded.attach (session : BgpSession) : Recorded := ⟨session, []⟩

def Recorded.send (self : Recorded) (advertisements : List Advertisement) (links : Links) :
    Links × Recorded :=
  let (links, session, _) := self.session.send advertisements links
  (links, ⟨session, self.batches ++ [advertisements]⟩)

/-- `sendSessions` with the record of each session. -/
def sendRecorded (advertisements : List Advertisement) :
    Links → List Recorded → Links × List Recorded
  | links, [] => (links, [])
  | links, recorded :: rest =>
    let (links, recorded) := recorded.send advertisements links
    let (links, rest) := sendRecorded advertisements links rest
    (links, recorded :: rest)

theorem sendRecorded_session (advertisements : List Advertisement) (links : Links)
    (recorded : List Recorded) :
    (sendRecorded advertisements links recorded).2.map Recorded.session =
      (sendSessions advertisements links (recorded.map Recorded.session)).2 := by
  induction recorded generalizing links with
  | nil => rfl
  | cons first rest ih =>
    simp only [sendRecorded, Recorded.send, sendSessions, List.map_cons, ih]

theorem sendRecorded_batches (advertisements : List Advertisement) (links : Links)
    (recorded : List Recorded) :
    (sendRecorded advertisements links recorded).2.map Recorded.batches =
      recorded.map (fun first => first.batches ++ [advertisements]) := by
  induction recorded generalizing links with
  | nil => rfl
  | cons first rest ih =>
    simp only [sendRecorded, Recorded.send, List.map_cons, ih]

/-- The parser, with the records of its sessions beside it. -/
structure World (β : Type*) where
  parser : LiveBgpParser β
  recorded : List Recorded

/-- The task of the stream acts, the parser works on the links as they are then, or
somebody stops the stream. -/
inductive Event (β : Type*)
  | stream (event : StreamEvent β)
  | work (during : List (StreamEvent β)) (links : Links)
  | stop

section Runs
variable {β : Type*} (value : β → UInt8) (fromSlice : List UInt8 → Except String RisLiveMessage)

namespace World

/-- A new parser with sessions attached to it. -/
def new (sessions : List BgpSession) : World β :=
  ⟨{ LiveBgpParser.new with bgpSessions := sessions }, sessions.map Recorded.attach⟩

/-- The records after `work`: each session's `send` is called where the buffer was processed
without an error. -/
def recordedAfter (self : World β) (during : List (StreamEvent β)) (links : Links) :
    List Recorded :=
  match self.parser.ensureStream with
  | .error _ => self.recorded
  | .ok parser =>
    match processBuffer value fromSlice (during.foldl LiveBgpParser.streamStep parser) with
    | (.error _, _) => self.recorded
    | (.ok (), parser, _) => (sendRecorded parser.advertisements links self.recorded).2

/-- One event, with the lines that were handed to the decoder. -/
def step (self : World β) : Event β → World β × List (List β)
  | .stream event => ({ self with parser := self.parser.streamStep event }, [])
  | .work during links =>
    let (_, parser, _, handed) := LiveBgpParser.work value fromSlice during links self.parser
    (⟨parser, self.recordedAfter value fromSlice during links⟩, handed)
  | .stop => ({ self with parser := self.parser.stopStream }, [])

def run (sessions : List BgpSession) (events : List (Event β)) : World β × List (List (List β)) :=
  loop (fun _ => false) (step value fromSlice) (new sessions) events

end World

/-- The advertisements of the lines that were handed to the decoder. -/
def parsed (log : List (List (List β))) : List Advertisement :=
  log.flatten.filterMap (announced value fromSlice)

/-- The parsers agree in all that the batches depend on. -/
structure Agree (first second : LiveBgpParser β) : Prop where
  advertisements : first.advertisements = second.advertisements
  messages : first.statistics.messagesProcessed = second.statistics.messagesProcessed
  sessions : first.bgpSessions = second.bgpSessions

/-- The advertisements of the lines handed over join the pending ones, whether or not the
call fails. -/
structure Advances (start : LiveBgpParser β)
    (outcome : Except BgpParserError Unit × LiveBgpParser β × List (List β)) : Prop where
  advertisements : outcome.2.1.advertisements =
    start.advertisements ++ outcome.2.2.filterMap (announced value fromSlice)
  messages : outcome.2.1.statistics.messagesProcessed = start.statistics.messagesProcessed +
    (outcome.2.2.filterMap (announced value fromSlice)).length
  sessions : outcome.2.1.bgpSessions = start.bgpSessions

variable {value fromSlice}

theorem Agree.trans {p q r : LiveBgpParser β} (h : Agree p q) (h' : Agree q r) : Agree p r :=
  ⟨h.advertisements.trans h'.advertisements, h.messages.trans h'.messages,
    h.sessions.trans h'.sessions⟩

theorem agree_streamStep (self : LiveBgpParser β) (event : StreamEvent β) :
    Agree (self.streamStep event) self := by
  unfold LiveBgpParser.streamStep
  rcases self.streamHandle with _ | ⟨_ | _⟩ <;> cases event <;> exact ⟨rfl, rfl, rfl⟩

theorem agree_streamSteps (during : List (StreamEvent β)) (self : LiveBgpParser β) :
    Agree (during.foldl LiveBgpParser.streamStep self) self := by
  induction during generalizing self with
  | nil => exact ⟨rfl, rfl, rfl⟩
  | cons event rest ih => exact (ih (self.streamStep event)).trans (agree_streamStep self event)

theorem exists_ensureStream (self : LiveBgpParser β) :
    ∃ started, self.ensureStream = .ok started := by
  unfold ensureStream startStream
  by_cases hrunning : self.isRunning = true
  · exact ⟨_, if_pos hrunning⟩
  · exact ⟨_, if_neg hrunning⟩

theorem agree_ensureStream {self started : LiveBgpParser β}
    (h : self.ensureStream = .ok started) : Agree started self := by
  unfold ensureStream startStream at h
  by_cases hrunning : self.isRunning = true
  · rw [if_pos hrunning] at h
    obtain rfl := Except.ok.inj h
    exact ⟨rfl, rfl, rfl⟩
  · rw [if_neg hrunning] at h
    obtain rfl := Except.ok.inj h
    exact ⟨rfl, rfl, rfl⟩

theorem processLines_bgpSessions (n : ℕ) (self : LiveBgpParser β) :
    (processLines value fromSlice n self).2.1.bgpSessions = self.bgpSessions := by
  induction n generalizing self with
  | zero => rfl
  | succ n ih =>
    unfold processLines
    cases self.bytesBuffer.findIdx? (isNewline value) with
    | none => rfl
    | some pos =>
      cases hslice : fromSlice ((self.bytesBuffer.take (pos + 1)).map value) with
      | error text => simp only [hslice]
      | ok message =>
        simp only [hslice, ih, accept]
        by_cases htype : message.msgType = "ris_message" <;> simp [htype]

theorem processBuffer_advances (self : LiveBgpParser β) :
    Advances value fromSlice self (processBuffer value fromSlice self) := by
  cases hreceiver : self.byteStreamReceiver with
  | none =>
    have hnone : processBuffer value fromSlice self =
        (.error (.StreamError "No receiver found"), self, []) := by
      unfold processBuffer
      rw [hreceiver]
    rw [hnone]
    exact ⟨by simp, by simp, rfl⟩
  | some chunks =>
    have hspec := @processBuffer_spec _ value fromSlice _ _ hreceiver
    rw [drain_eq] at hspec
    refine ⟨hspec.advertisements, hspec.messages, ?_⟩
    unfold processBuffer
    rw [hreceiver]
    simp only [processLines_bgpSessions, drain_eq]

/-- Every session got the same batches, and these and the pending advertisements are the
parsed ones. -/
structure Delivered (world : World β) (done : List Advertisement) : Prop where
  attached : world.parser.bgpSessions = world.recorded.map Recorded.session
  batches : ∃ batches, (∀ recorded ∈ world.recorded, recorded.batches = batches) ∧
    batches.flatten ++ world.parser.advertisements = done
  messages : world.parser.statistics.messagesProcessed = done.length

theorem delivered_new (sessions : List BgpSession) :
    Delivered (World.new sessions : World β) [] where
  attached := by
    have hid : Recorded.session ∘ Recorded.attach = id := rfl
    simp [World.new, hid]
  batches := ⟨[], by simp [World.new, Recorded.attach], rfl⟩
  messages := rfl

theorem Delivered.agree {world : World β} {done : List Advertisement} (h : Delivered world done)
    {parser : LiveBgpParser β} (hagree : Agree parser world.parser) :
    Delivered { world with parser := parser } done := by
  obtain ⟨batches, hsame, hflatten⟩ := h.batches
  refine ⟨hagree.sessions.trans h.attached, ⟨batches, hsame, ?_⟩,
    hagree.messages.trans h.messages⟩
  rw [hagree.advertisements]
  exact hflatten

section Cycles
variable {started parser : LiveBgpParser β} {recorded : List Recorded} {done : List Advertisement}
  {handed : List (List β)}

/-- A cycle that fails keeps its advertisements pending. -/
theorem Delivered.keep {e : BgpParserError} (h : Delivered ⟨started, recorded⟩ done)
    (hadvances : Advances value fromSlice started (.error e, parser, handed)) :
    Delivered ⟨parser, recorded⟩ (done ++ handed.filterMap (announced value fromSlice)) := by
  obtain ⟨hads, hcount, hsessions⟩ := hadvances
  obtain ⟨batches, hsame, hflatten⟩ := h.batches
  simp only at hads hcount hsessions hflatten
  refine ⟨hsessions.trans h.attached, ⟨batches, hsame, ?_⟩, ?_⟩
  · show batches.flatten ++ parser.advertisements = _
    rw [hads, ← List.append_assoc, hflatten]
  · show parser.statistics.messagesProcessed = _
    rw [hcount, h.messages, List.length_append]

/-- A cycle that succeeds passes all pending advertisements to every session. -/
theorem Delivered.pass (h : Delivered ⟨started, recorded⟩ done)
    (hadvances : Advances value fromSlice started (.ok (), parser, handed)) (links : Links) :
    Delivered
      ⟨{ parser with
          bgpSessions := (sendSessions parser.advertisements links parser.bgpSessions).2
          advertisements := [] },
        (sendRecorded parser.advertisements links recorded).2⟩
      (done ++ handed.filterMap (announced value fromSlice)) := by
  obtain ⟨hads, hcount, hsessions⟩ := hadvances
  obtain ⟨batches, hsame, hflatten⟩ := h.batches
  have hattached := h.attached
  simp only at hads hcount hsessions hflatten hsame hattached
  refine ⟨?_, ⟨batches ++ [parser.advertisements], ?_, ?_⟩, ?_⟩
  · show (sendSessions parser.advertisements links parser.bgpSessions).2 = _
    rw [sendRecorded_session, hsessions, hattached]
  · intro sent hsent
    have hmem := List.mem_map_of_mem (f := Recorded.batches) hsent
    rw [sendRecorded_batches] at hmem
    obtain ⟨before, hbefore, heq⟩ := List.mem_map.mp hmem
    rw [← heq, hsame before hbefore]
  · show (batches ++ [parser.advertisements]).flatten ++ [] = _
    rw [List.flatten_append, List.append_nil, hads, ← hflatten]
    simp
  · show parser.statistics.messagesProcessed = _
    rw [hcount, h.messages, List.length_append]

end Cycles

/-- A cycle passes all pending advertisements on, or keeps them pending. -/
theorem Delivered.work {world : World β} {done : List Advertisement} (h : Delivered world done)
    (during : List (StreamEvent β)) (links : Links) :
    Delivered (world.step value fromSlice (.work during links)).1
      (done ++ (world.step value fromSlice (.work during links)).2.filterMap
        (announced value fromSlice)) := by
  obtain ⟨started, hstart⟩ := exists_ensureStream world.parser
  have hagree := (agree_streamSteps during started).trans (agree_ensureStream hstart)
  have hnow := h.agree hagree
  have hadvances := @processBuffer_advances _ value fromSlice
    (during.foldl LiveBgpParser.streamStep started)
  simp only [World.step, World.recordedAfter, LiveBgpParser.work, hstart, deliverAll]
  rcases hprocess : processBuffer value fromSlice
    (during.foldl LiveBgpParser.streamStep started) with ⟨result, parser, handed⟩
  rw [hprocess] at hadvances
  cases result with
  | error e => exact (hnow.keep hadvances).agree ⟨rfl, rfl, rfl⟩
  | ok _ => exact hnow.pass hadvances links

theorem length_step (world : World β) (event : Event β) :
    (world.step value fromSlice event).1.recorded.length = world.recorded.length := by
  cases event with
  | stream event => rfl
  | stop => rfl
  | work during links =>
    show (world.recordedAfter value fromSlice during links).length = _
    unfold World.recordedAfter
    cases world.parser.ensureStream with
    | error e => rfl
    | ok started =>
      simp only
      rcases processBuffer value fromSlice (during.foldl LiveBgpParser.streamStep started) with
        ⟨_ | _, parser, handed⟩
      · rfl
      · have hmap := congrArg List.length
          (sendRecorded_batches parser.advertisements links world.recorded)
        rwa [List.length_map, List.length_map] at hmap

theorem length_run (sessions : List BgpSession) (events : List (Event β)) :
    (World.run value fromSlice sessions events).1.recorded.length = sessions.length :=
  Loops.history (fun world _ _ => world.recorded.length = sessions.length)
    (fun world _ _ event _ hworld => (length_step world event).trans hworld)
    (by simp [World.new]) events

theorem Delivered.step {world : World β} {log : List (List (List β))}
    (h : Delivered world (parsed value fromSlice log)) (event : Event β) :
    Delivered (world.step value fromSlice event).1
      (parsed value fromSlice (log ++ [(world.step value fromSlice event).2])) := by
  have hparsed : ∀ handed : List (List β), parsed value fromSlice (log ++ [handed]) =
      parsed value fromSlice log ++ handed.filterMap (announced value fromSlice) := by
    intro handed
    simp [parsed]
  rw [hparsed]
  cases event with
  | stream event =>
    rw [World.step, List.filterMap_nil, List.append_nil]
    exact h.agree (agree_streamStep world.parser event)
  | work during links => exact h.work during links
  | stop =>
    rw [World.step, List.filterMap_nil, List.append_nil]
    exact h.agree ⟨rfl, rfl, rfl⟩

theorem delivered_run (sessions : List BgpSession) (events : List (Event β)) :
    Delivered (World.run value fromSlice sessions events).1
      (parsed value fromSlice (World.run value fromSlice sessions events).2) :=
  Loops.history (fun world _ log => Delivered world (parsed value fromSlice log))
    (fun _ _ _ event _ hworld => hworld.step event) (delivered_new sessions) events

end Runs

/-- Over any events of a new parser with any sessions: for each session, the batches passed
to it and then the pending advertisements are the parsed ones in their order, all sessions
get the same batches, and the counter is the number of parsed advertisements. -/
theorem batches_of_run {β : Type*} (value : β → UInt8)
    (fromSlice : List UInt8 → Except String RisLiveMessage) (sessions : List BgpSession)
    (events : List (Event β)) :
    ∃ world log, World.run value fromSlice sessions events = (world, log) ∧
      world.recorded.length = sessions.length ∧
      world.parser.bgpSessions = world.recorded.map Recorded.session ∧
      (∀ recorded ∈ world.recorded, recorded.batches.flatten ++ world.parser.advertisements =
        parsed value fromSlice log) ∧
      (∀ recorded ∈ world.recorded, ∀ other ∈ world.recorded,
        recorded.batches = other.batches) ∧
      world.parser.statistics.messagesProcessed = (parsed value fromSlice log).length := by
  rcases hrun : World.run value fromSlice sessions events with ⟨world, log⟩
  have h := @delivered_run _ value fromSlice sessions events
  have hlength := @length_run _ value fromSlice sessions events
  rw [hrun] at h hlength
  obtain ⟨batches, hsame, hflatten⟩ := h.batches
  refine ⟨world, log, rfl, hlength, h.attached, ?_, ?_, h.messages⟩
  · intro recorded hrecorded
    rw [hsame recorded hrecorded]
    exact hflatten
  · intro recorded hrecorded other hother
    rw [hsame recorded hrecorded, hsame other hother]

/-- A message is parsed before a line that fails, and two more after the restart. -/
def failedOnce : List (Event UInt8) :=
  [.work [.deliver (sampleLine ++ [0x78, 0x0a])] (fun _ => Channel.create 1),
    .work [.deliver sampleLine] (fun _ => Channel.create 1), .stream (.deliver sampleLine),
    .work [] (fun _ => Channel.create 1)]

set_option maxRecDepth 10000 in
/-- The first message is kept over the failure, and goes out with the second one. -/
theorem batches_of_run_failedOnce :
    let message := ofRisLiveData sampleData
    ∃ world log, World.run id sampleFromSlice [.new 1, .new 2]
        failedOnce = (world, log) ∧
      world.recorded.map Recorded.batches =
        [[[message, message], [message]], [[message, message], [message]]] ∧
      (∀ recorded ∈ world.recorded, recorded.batches.flatten ++ world.parser.advertisements =
        parsed id sampleFromSlice log) := by
  obtain ⟨world, log, hrun, -, -, hbatches, -⟩ := batches_of_run id sampleFromSlice
    [.new 1, .new 2] failedOnce
  refine ⟨world, log, hrun, ?_, hbatches⟩
  rw [show world = (world, log).1 from rfl, ← hrun]
  rfl

end NetfabricBgp.SessionBatches
