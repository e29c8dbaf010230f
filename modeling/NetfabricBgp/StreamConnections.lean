import NetfabricBgp.LineDeliveries

/-!
The live parser over one connection after another. Every byte carries the number of the
connection it came over, and the history of the current connection is kept beside the
parser: what its task delivered, what was appended to the line buffer, and the lines
handed to the decoder. The parser reads none of this.
-/
namespace NetfabricBgp.StreamConnections

open Advertisements Channels LineFraming Loops StateMachines LiveParsers LiveBgpParser
  LineDeliveries

/-- A byte with the number of its connection. -/
abbrev Tagged := ℕ × UInt8

def tag (connection : ℕ) (bytes : List UInt8) : List Tagged := bytes.map (connection, ·)

structure World where
  parser : LiveBgpParser Tagged
  connection : ℕ
  inherited : List Tagged
  delivered : List (List Tagged)
  appended : List (List Tagged)
  handed : List (List Tagged)

/-- What one event did to the line buffer: the bytes it held, the chunks appended to them,
and the lines handed to the decoder. -/
structure Turn where
  kept : List Tagged
  taken : List (List Tagged)
  handed : List (List Tagged)

/-- The task of the stream acts, the parser works, or somebody stops the stream. -/
inductive Event
  | stream (event : StreamEvent UInt8)
  | work (during : List (StreamEvent UInt8)) (links : Links)
  | stop

def tagEvent (connection : ℕ) : StreamEvent UInt8 → StreamEvent Tagged
  | .deliver bytes => .deliver (tag connection bytes)
  | .finish => .finish

namespace World

def new : World := ⟨LiveBgpParser.new, 0, [], [], [], []⟩

def streamStep (self : World) (event : StreamEvent UInt8) : World :=
  match self.parser.streamHandle, event with
  | some ⟨false⟩, .deliver bytes =>
    { self with
      parser := self.parser.streamStep (.deliver (tag self.connection bytes))
      delivered := self.delivered ++ [tag self.connection bytes] }
  | _, event => { self with parser := self.parser.streamStep (tagEvent self.connection event) }

/-- A new connection, unless the task of the current one is still running. -/
def restart (self : World) : World :=
  if self.parser.isRunning then self
  else
    { parser := { self.parser with
        byteStreamReceiver := some []
        streamHandle := some ⟨false⟩ }
      connection := self.connection + 1
      inherited := self.parser.bytesBuffer
      delivered := []
      appended := []
      handed := [] }

variable (fromSlice : List UInt8 → Except String RisLiveMessage)

def process (self : World) (links : Links) : World × Turn :=
  let (_, parser, _, handed) := deliverAll Prod.snd fromSlice links self.parser
  let taken := self.parser.byteStreamReceiver.getD []
  ({ self with
      parser := parser
      appended := self.appended ++ taken
      handed := self.handed ++ handed },
    ⟨self.parser.bytesBuffer, taken, handed⟩)

def work (self : World) (during : List (StreamEvent UInt8)) (links : Links) : World × Turn :=
  (during.foldl streamStep self.restart).process fromSlice links

def step (self : World) : Event → World × Turn
  | .stream event => (self.streamStep event, ⟨[], [], []⟩)
  | .work during links => self.work fromSlice during links
  | .stop => ({ self with parser := self.parser.stopStream }, ⟨[], [], []⟩)

/-- A new parser over a sequence of events. -/
def run (events : List Event) : World × List Turn :=
  loop (fun _ => false) (step fromSlice) new events

section Parser
variable {fromSlice}

theorem parser_streamStep (self : World) (event : StreamEvent UInt8) :
    (self.streamStep event).parser = self.parser.streamStep (tagEvent self.connection event) ∧
      (self.streamStep event).connection = self.connection := by
  unfold streamStep
  rcases self.parser.streamHandle with _ | ⟨_ | _⟩ <;> cases event <;> exact ⟨rfl, rfl⟩

theorem parser_streamSteps (self : World) (during : List (StreamEvent UInt8)) :
    (during.foldl streamStep self).parser =
        (during.map (tagEvent self.connection)).foldl LiveBgpParser.streamStep self.parser ∧
      (during.foldl streamStep self).connection = self.connection := by
  induction during generalizing self with
  | nil => exact ⟨rfl, rfl⟩
  | cons event rest ih =>
    obtain ⟨hparser, hconnection⟩ := parser_streamStep self event
    obtain ⟨hrest, hsame⟩ := ih (self.streamStep event)
    rw [hparser, hconnection] at hrest
    rw [hconnection] at hsame
    exact ⟨hrest, hsame⟩

theorem ensureStream_restart (self : World) :
    self.parser.ensureStream = .ok self.restart.parser := by
  unfold ensureStream restart
  by_cases h : self.parser.isRunning = true <;> simp [h, startStream]

/-- The history is beside the parser only: the parser does what `work` does. -/
theorem parser_work (self : World) (during : List (StreamEvent UInt8)) (links : Links) :
    (self.work fromSlice during links).1.parser = (LiveBgpParser.work Prod.snd fromSlice
      (during.map (tagEvent self.restart.connection)) links self.parser).2.1 := by
  unfold LiveBgpParser.work
  rw [ensureStream_restart, work, process, (parser_streamSteps self.restart during).1]

end Parser

end World

section Histories
variable {fromSlice : List UInt8 → Except String RisLiveMessage} {self : World}

/-- The history explains the parser: what was delivered is appended or in the channel, and
the lines handed over are those of the bytes appended. -/
structure Consistent (world : World) : Prop where
  idle : world.parser.streamHandle = none → world.parser.bytesBuffer = []
  channel : ∀ handle, world.parser.streamHandle = some handle →
    ∃ chunks, world.parser.byteStreamReceiver = some chunks ∧
      world.delivered = world.appended ++ chunks
  framed : ∀ handle, world.parser.streamHandle = some handle →
    lines (isNewline Prod.snd) (world.inherited ++ world.appended.flatten) =
      (world.handed, world.parser.bytesBuffer)
  older : ∀ byte ∈ world.parser.bytesBuffer, byte.1 ≤ world.connection
  current : ∀ chunk ∈ world.delivered, ∀ byte ∈ chunk, byte.1 = world.connection

theorem consistent_new : Consistent World.new := by
  constructor <;> simp [World.new, LiveBgpParser.new]

theorem streamHandle_streamStep {β : Type*} {parser : LiveBgpParser β} (event : StreamEvent β)
    (h : parser.streamHandle ≠ none) : (parser.streamStep event).streamHandle ≠ none := by
  unfold streamStep
  rcases hhandle : parser.streamHandle with _ | ⟨_ | _⟩
  · exact absurd hhandle h
  · cases event <;> simp
  · simp [hhandle]

theorem mem_tag {connection : ℕ} {bytes : List UInt8} {byte : Tagged}
    (h : byte ∈ tag connection bytes) : byte.1 = connection := by
  obtain ⟨value, -, rfl⟩ := List.mem_map.mp h
  rfl

theorem Consistent.streamStep (h : Consistent self) (event : StreamEvent UInt8) :
    Consistent (self.streamStep event) := by
  unfold World.streamStep LiveBgpParser.streamStep
  rcases hhandle : self.parser.streamHandle with _ | ⟨_ | _⟩
  · simpa [hhandle] using h
  · obtain ⟨chunks, hreceiver, hdelivered⟩ := h.channel _ hhandle
    have hframed := h.framed _ hhandle
    cases event with
    | deliver bytes =>
      refine ⟨by simp, ?_, fun _ _ => hframed, h.older, ?_⟩
      · intro handle _
        refine ⟨chunks ++ [tag self.connection bytes], by simp [hreceiver], ?_⟩
        rw [← List.append_assoc, ← hdelivered]
      · intro chunk hchunk byte hbyte
        rcases List.mem_append.mp hchunk with hold | hnew
        · exact h.current chunk hold byte hbyte
        · obtain rfl := List.mem_singleton.mp hnew
          exact mem_tag hbyte
    | finish =>
      exact ⟨by simp [tagEvent], fun _ _ => ⟨chunks, hreceiver, hdelivered⟩, fun _ _ => hframed,
        h.older, h.current⟩
  · simpa [hhandle] using h

theorem Consistent.streamSteps (h : Consistent self) (during : List (StreamEvent UInt8)) :
    Consistent (during.foldl World.streamStep self) := by
  induction during generalizing self with
  | nil => exact h
  | cons event rest ih => exact ih (h.streamStep event)

theorem no_newline_of_consistent (h : Consistent self) :
    ∀ byte ∈ self.parser.bytesBuffer, isNewline Prod.snd byte = false := by
  cases hhandle : self.parser.streamHandle with
  | none => simp [h.idle hhandle]
  | some handle =>
    obtain ⟨-, htail, -⟩ := @lines_spec _ (isNewline Prod.snd)
      (self.inherited ++ self.appended.flatten)
    rwa [h.framed handle hhandle] at htail

theorem Consistent.restart (h : Consistent self) : Consistent self.restart := by
  unfold World.restart
  by_cases hrunning : self.parser.isRunning = true
  · rw [if_pos hrunning]
    exact h
  · rw [if_neg hrunning]
    refine ⟨by simp, fun _ _ => ⟨[], rfl, rfl⟩, ?_, ?_, by simp⟩
    · intro handle _
      rw [List.flatten_nil, List.append_nil]
      exact lines_of_no_end (no_newline_of_consistent h)
    · intro byte hbyte
      exact Nat.le_succ_of_le (h.older byte hbyte)

theorem streamHandle_restart (self : World) : self.restart.parser.streamHandle ≠ none := by
  unfold World.restart
  by_cases hrunning : self.parser.isRunning = true
  · rw [if_pos hrunning]
    intro hnone
    simp [isRunning, hnone] at hrunning
  · simp [hrunning]

theorem streamHandle_streamSteps (h : self.parser.streamHandle ≠ none)
    (during : List (StreamEvent UInt8)) :
    (during.foldl World.streamStep self).parser.streamHandle ≠ none := by
  induction during generalizing self with
  | nil => exact h
  | cons event rest ih =>
    apply ih
    rw [(World.parser_streamStep self event).1]
    exact streamHandle_streamStep _ h

/-- The bytes that a call works on: the buffer and the channel, cut into the lines handed
over and the buffer that is left. -/
theorem process_spec (h : Consistent self) (hhandle : self.parser.streamHandle ≠ none)
    (links : Links) :
    (self.process fromSlice links).2.kept = self.parser.bytesBuffer ∧
    self.delivered = self.appended ++ (self.process fromSlice links).2.taken ∧
    Processed Prod.snd fromSlice (self.parser.drain (self.process fromSlice links).2.taken)
      (processBuffer Prod.snd fromSlice self.parser) ∧
    (self.process fromSlice links).2.handed =
      (processBuffer Prod.snd fromSlice self.parser).2.2 := by
  obtain ⟨handle, hhandle⟩ := Option.ne_none_iff_exists'.mp hhandle
  obtain ⟨chunks, hreceiver, hdelivered⟩ := h.channel handle hhandle
  have htaken : (self.process fromSlice links).2.taken = chunks := by
    show self.parser.byteStreamReceiver.getD [] = chunks
    rw [hreceiver, Option.getD_some]
  rw [htaken]
  exact ⟨rfl, hdelivered, processBuffer_spec hreceiver, (deliverAll_cases links self.parser).1⟩

/-- What a call takes out of the channel came over the current connection. -/
theorem current_taken (h : Consistent self) (hhandle : self.parser.streamHandle ≠ none)
    (links : Links) :
    ∀ byte ∈ (self.process fromSlice links).2.taken.flatten, byte.1 = self.connection := by
  obtain ⟨-, hdelivered, -⟩ := @process_spec fromSlice _ h hhandle links
  intro byte hbyte
  obtain ⟨chunk, hchunk, hbyte⟩ := List.mem_flatten.mp hbyte
  refine h.current chunk ?_ byte hbyte
  rw [hdelivered]
  exact List.mem_append_right _ hchunk

/-- The bytes that a call takes in and does not hand over stay in the buffer. -/
theorem bytes_process (h : Consistent self) (hhandle : self.parser.streamHandle ≠ none)
    (links : Links) :
    (processBuffer Prod.snd fromSlice self.parser).2.2.flatten ++
        (processBuffer Prod.snd fromSlice self.parser).2.1.bytesBuffer =
      self.parser.bytesBuffer ++ (self.process fromSlice links).2.taken.flatten := by
  obtain ⟨-, -, hspec, -⟩ := @process_spec fromSlice _ h hhandle links
  rw [drain_eq] at hspec
  exact hspec.bytes

/-- A call that keeps the task has taken all of its channel. -/
theorem handle_process (h : Consistent self) (hhandle : self.parser.streamHandle ≠ none)
    (links : Links) :
    ∀ handle, (self.process fromSlice links).1.parser.streamHandle = some handle →
      self.parser.streamHandle = some handle ∧
        (self.process fromSlice links).1.parser.byteStreamReceiver = some [] := by
  obtain ⟨-, -, hspec, -⟩ := @process_spec fromSlice _ h hhandle links
  rw [drain_eq] at hspec
  have hparser : (self.process fromSlice links).1.parser =
      (deliverAll Prod.snd fromSlice links self.parser).2.1 := rfl
  rw [hparser]
  intro handle hstays
  obtain ⟨-, ⟨-, -, hstream, hreceiver⟩ | ⟨-, hstream⟩⟩ :=
    @deliverAll_cases _ Prod.snd fromSlice links self.parser
  · rw [hstream, hspec.handle] at hstays
    rw [hreceiver]
    exact ⟨hstays, hspec.receiver⟩
  · rw [hstream] at hstays
    cases hstays

theorem Consistent.process (h : Consistent self) (hhandle : self.parser.streamHandle ≠ none)
    (links : Links) : Consistent (self.process fromSlice links).1 := by
  obtain ⟨-, hdelivered, hspec, hhanded⟩ := @process_spec fromSlice _ h hhandle links
  obtain ⟨handle, hsome⟩ := Option.ne_none_iff_exists'.mp hhandle
  have hframed := h.framed handle hsome
  have hbytes := @bytes_process fromSlice _ h hhandle links
  rw [drain_eq] at hspec
  have hparser : (self.process fromSlice links).1.parser =
      (deliverAll Prod.snd fromSlice links self.parser).2.1 := rfl
  have happended : (self.process fromSlice links).1.appended =
      self.appended ++ (self.process fromSlice links).2.taken := rfl
  have hall : (self.process fromSlice links).1.handed =
      self.handed ++ (self.process fromSlice links).2.handed := rfl
  obtain ⟨-, ⟨hok, hbuffer, hstream, hreceiver⟩ | ⟨hbuffer, hstream⟩⟩ :=
    @deliverAll_cases _ Prod.snd fromSlice links self.parser
  · have hreceived : (self.process fromSlice links).1.parser.byteStreamReceiver = some [] := by
      rw [hparser, hreceiver]
      exact hspec.receiver
    refine ⟨?_, ?_, ?_, ?_, h.current⟩
    · intro hnone
      rw [hparser, hstream, hspec.handle] at hnone
      exact absurd hnone hhandle
    · intro _ _
      refine ⟨[], hreceived, ?_⟩
      rw [happended, List.append_nil]
      exact hdelivered
    · intro _ _
      have hlines := lines_of_complete hspec.complete (hspec.emptied hok)
      rw [hbytes] at hlines
      show lines (isNewline Prod.snd)
        (self.inherited ++ (self.process fromSlice links).1.appended.flatten) = _
      rw [happended, List.flatten_append, ← List.append_assoc, lines_append, hframed, hlines,
        hparser, hbuffer, hall, hhanded]
    · intro byte hbyte
      rw [hparser, hbuffer] at hbyte
      have hmem : byte ∈ self.parser.bytesBuffer ++
          (self.process fromSlice links).2.taken.flatten := by
        rw [← hbytes]
        exact List.mem_append_right _ hbyte
      rcases List.mem_append.mp hmem with hold | hnew
      · exact h.older byte hold
      · exact Nat.le_of_eq (current_taken h hhandle links byte hnew)
  · refine ⟨fun _ => hparser ▸ hbuffer, ?_, ?_, ?_, h.current⟩
    · intro handle' hhandle'
      rw [hparser, hstream] at hhandle'
      cases hhandle'
    · intro handle' hhandle'
      rw [hparser, hstream] at hhandle'
      cases hhandle'
    · intro byte hbyte
      rw [hparser, hbuffer] at hbyte
      exact absurd hbyte List.not_mem_nil

theorem Consistent.step (h : Consistent self) (event : Event) :
    Consistent (self.step fromSlice event).1 := by
  cases event with
  | stream event => exact h.streamStep event
  | work during links =>
    have hrestart := h.restart.streamSteps during
    exact hrestart.process (streamHandle_streamSteps (streamHandle_restart self) during) links
  | stop => exact ⟨fun _ => rfl, by simp [World.step, stopStream], by simp [World.step, stopStream],
      by simp [World.step, stopStream], h.current⟩

theorem consistent_run (events : List Event) : Consistent (World.run fromSlice events).1 :=
  history (fun world _ _ => Consistent world) (fun _ _ _ event _ h => h.step event) consistent_new
    events

end Histories

section Restarts
variable {fromSlice : List UInt8 → Except String RisLiveMessage}

/-- The task of the current connection has ended, and nobody stopped the stream. -/
def Finished (world : World) : Prop := world.parser.streamHandle = some ⟨true⟩

/-- All that the connection delivered is appended, and its complete lines, the first after
what the buffer held before, are handed to the decoder. -/
structure Drained (world : World) : Prop where
  appended : world.appended = world.delivered
  parsed : world.handed =
    (lines (isNewline Prod.snd) (world.inherited ++ world.delivered.flatten)).1

/-- Every connection that a call of `work` replaces because its task has ended is drained. -/
def DrainsFinished (fromSlice : List UInt8 → Except String RisLiveMessage) (events : List Event) :
    Prop :=
  ∀ before during links after, events = before ++ .work during links :: after →
    Finished (World.run fromSlice before).1 → Drained (World.run fromSlice before).1

theorem drained_iff {world : World} (h : Consistent world) (hfinished : Finished world) :
    Drained world ↔ world.parser.byteStreamReceiver = some [] := by
  obtain ⟨chunks, hreceiver, hdelivered⟩ := h.channel _ hfinished
  have hframed := h.framed _ hfinished
  rw [hreceiver, Option.some.injEq]
  constructor
  · intro hdrained
    have hsame := hdrained.appended
    rw [hdelivered] at hsame
    exact List.self_eq_append_right.mp hsame
  · intro hchunks
    rw [hchunks, List.append_nil] at hdelivered
    refine ⟨hdelivered.symm, ?_⟩
    rw [hdelivered, hframed]

/-- What the events say about the stream since the last call of `work`: whether the task still
runs, and the chunks that it has delivered. -/
structure Since where
  running : Bool
  chunks : List (List UInt8)

def isFinish : StreamEvent UInt8 → Bool
  | .deliver _ => false
  | .finish => true

def Since.step (self : Since) : Event → Since
  | .stream (.deliver bytes) =>
    if self.running then { self with chunks := self.chunks ++ [bytes] } else self
  | .stream .finish => { self with running := false }
  | .work during _ => ⟨!during.any isFinish, []⟩
  | .stop => ⟨false, []⟩

/-- The chunks that come after the last call of `work` and before the end of the task. -/
def late (events : List Event) : List (List UInt8) :=
  (events.foldl Since.step ⟨false, []⟩).chunks

/-- As long as the task has not been given up, the channel holds what has come since. -/
structure Pending (since : Since) (world : World) : Prop where
  running : ∀ finished, world.parser.streamHandle = some ⟨finished⟩ → since.running = !finished
  channel : ∀ handle, world.parser.streamHandle = some handle →
    world.parser.byteStreamReceiver = some (since.chunks.map (tag world.connection))

theorem Pending.streamStep {since : Since} {world : World} (h : Pending since world)
    (event : StreamEvent UInt8) :
    Pending (since.step (.stream event)) (world.streamStep event) := by
  rcases hhandle : world.parser.streamHandle with _ | ⟨_ | _⟩
  · constructor <;> simp [World.streamStep, LiveBgpParser.streamStep, hhandle]
  · have hrunning := h.running _ hhandle
    have hchannel := h.channel _ hhandle
    cases event with
    | deliver bytes =>
      constructor <;>
        simp [World.streamStep, LiveBgpParser.streamStep, hhandle, Since.step, hrunning, hchannel]
    | finish =>
      constructor <;>
        simp [World.streamStep, LiveBgpParser.streamStep, hhandle, Since.step, hchannel, tagEvent]
  · have hrunning := h.running _ hhandle
    have hchannel := h.channel _ hhandle
    cases event with
    | deliver bytes =>
      constructor <;>
        simp [World.streamStep, LiveBgpParser.streamStep, hhandle, Since.step, hrunning, hchannel]
    | finish =>
      constructor <;>
        simp [World.streamStep, LiveBgpParser.streamStep, hhandle, Since.step, hchannel]

theorem running_streamSteps {since : Since} {world : World} (h : Pending since world)
    (during : List (StreamEvent UInt8)) :
    ∀ finished, (during.foldl World.streamStep world).parser.streamHandle = some ⟨finished⟩ →
      (since.running && !during.any isFinish) = !finished := by
  induction during generalizing since world with
  | nil =>
    intro finished hhandle
    simpa using h.running finished hhandle
  | cons event rest ih =>
    intro finished hhandle
    have hrest := ih (h.streamStep event) finished hhandle
    cases event with
    | deliver bytes =>
      rw [← hrest]
      by_cases hrunning : since.running = true <;> simp [Since.step, isFinish, hrunning]
    | finish =>
      rw [← hrest]
      simp [Since.step, isFinish]

/-- After a restart the task runs. -/
theorem Pending.restart {since : Since} {world : World} (h : Pending since world) :
    ∃ chunks, Pending ⟨true, chunks⟩ world.restart := by
  unfold World.restart
  by_cases hrunning : world.parser.isRunning = true
  · rw [if_pos hrunning]
    refine ⟨since.chunks, ?_, h.channel⟩
    intro finished hhandle
    simpa [isRunning, hhandle] using hrunning
  · rw [if_neg hrunning]
    refine ⟨[], ?_, fun _ _ => rfl⟩
    intro finished hhandle
    simpa using hhandle.symm

/-- A call of `work` that leaves the task alone has emptied the channel. -/
theorem Pending.work {since : Since} {world : World} (h : Pending since world)
    (hconsistent : Consistent world) (during : List (StreamEvent UInt8)) (links : Links) :
    Pending (since.step (.work during links)) (world.work fromSlice during links).1 := by
  obtain ⟨chunks, hrestart⟩ := h.restart
  have hhandle := streamHandle_streamSteps (streamHandle_restart world) during
  have hkept := @handle_process fromSlice _ (hconsistent.restart.streamSteps during) hhandle links
  constructor
  · intro finished hfinished
    have hflags := running_streamSteps hrestart during finished (hkept _ hfinished).1
    rwa [Bool.true_and] at hflags
  · intro handle hstays
    exact (hkept _ hstays).2

theorem pending_run (events : List Event) :
    Pending (events.foldl Since.step ⟨false, []⟩) (World.run fromSlice events).1 := by
  have hrun := @history _ _ _ (fun _ => false) (World.step fromSlice)
    (fun world events _ => Consistent world ∧ Pending (events.foldl Since.step ⟨false, []⟩) world)
    ?_ _ ⟨consistent_new, ⟨nofun, nofun⟩⟩ events
  · rw [length_log_of_running rfl, List.take_length] at hrun
    exact hrun.2
  · intro world events log event _ h
    refine ⟨h.1.step event, ?_⟩
    rw [List.foldl_append]
    cases event with
    | stream event => exact h.2.streamStep event
    | work during links => exact h.2.work h.1 during links
    | stop => exact ⟨nofun, nofun⟩

theorem channel_of_finished {events : List Event}
    (h : Finished (World.run fromSlice events).1) :
    (World.run fromSlice events).1.parser.byteStreamReceiver = some [] ↔ late events = [] := by
  rw [(pending_run events).channel _ h, Option.some.injEq, List.map_eq_nil_iff]
  rfl

/-- In every run the finished connections are drained before they are replaced exactly when none of
them has delivered anything after the last call of `work` that took from its channel. -/
theorem drainsFinished_iff (fromSlice : List UInt8 → Except String RisLiveMessage)
    (events : List Event) :
    DrainsFinished fromSlice events ↔
      ∀ before during links after, events = before ++ .work during links :: after →
        Finished (World.run fromSlice before).1 → late before = [] := by
  constructor
  · intro h before during links after hevents hfinished
    exact (channel_of_finished hfinished).mp ((drained_iff (consistent_run before) hfinished).mp
      (h before during links after hevents hfinished))
  · intro h before during links after hevents hfinished
    exact (drained_iff (consistent_run before) hfinished).mpr ((channel_of_finished hfinished).mpr
      (h before during links after hevents hfinished))

theorem exists_take {events before after : List Event} {event : Event}
    (h : events = before ++ event :: after) : ∃ n < events.length, before = events.take n := by
  refine ⟨before.length, ?_, by rw [h, List.take_left]⟩
  rw [h, List.length_append, List.length_cons]
  omega

/-- A connection delivers a line, which the parser takes before the connection ends. -/
def takenLine : List Event :=
  [.work [] (fun _ => Channel.create 1), .stream (.deliver sampleLine),
    .work [] (fun _ => Channel.create 1), .stream .finish, .work [] (fun _ => Channel.create 1)]

set_option maxRecDepth 10000 in
theorem drainsFinished_iff_takenLine :
    Finished (World.run sampleFromSlice (takenLine.take 4)).1 ∧
      (World.run sampleFromSlice (takenLine.take 4)).1.handed = [tag 1 sampleLine] ∧
      DrainsFinished sampleFromSlice takenLine := by
  refine ⟨rfl, rfl, (drainsFinished_iff sampleFromSlice takenLine).mpr ?_⟩
  intro before during links after hevents hfinished
  obtain ⟨n, hlt, rfl⟩ := exists_take hevents
  rcases n with _ | _ | _ | _ | _ | n
  · rfl
  · rfl
  · cases hfinished
  · rfl
  · rfl
  · simp only [takenLine, List.length_cons, List.length_nil] at hlt
    omega

/-- The decoder on the line of two braces. -/
def refuseBraces : List UInt8 → Except String RisLiveMessage :=
  fun _ => .error "missing field `type` at line 1 column 2"

/-- A connection delivers a line and ends before the parser works again. -/
def lateLine : List Event :=
  [.work [] (fun _ => Channel.create 1), .stream (.deliver [0x7b, 0x7d, 0x0a]), .stream .finish,
    .work [] (fun _ => Channel.create 1)]

theorem not_drainsFinished_lateLine : ¬ DrainsFinished refuseBraces lateLine := by
  intro h
  have hdrained := h (lateLine.take 3) [] (fun _ => Channel.create 1) [] rfl rfl
  exact absurd hdrained.appended (List.cons_ne_nil _ _).symm

end Restarts

section Separation
variable {fromSlice : List UInt8 → Except String RisLiveMessage} {self : World}

/-- No line is handed over with bytes of two connections, and nothing is appended to bytes
of another connection. -/
structure Separates (turn : Turn) : Prop where
  lines : ∀ line ∈ turn.handed, ∀ byte ∈ line, ∀ byte' ∈ line, byte.1 = byte'.1
  kept : ∀ byte ∈ turn.kept, ∀ byte' ∈ turn.taken.flatten, byte.1 = byte'.1

/-- The buffer is empty whenever a finished connection is replaced. -/
def CleanRestarts (fromSlice : List UInt8 → Except String RisLiveMessage) (events : List Event) :
    Prop :=
  ∀ before during links after, events = before ++ .work during links :: after →
    Finished (World.run fromSlice before).1 →
      (World.run fromSlice before).1.parser.bytesBuffer = []

/-- The buffer holds bytes of the current connection only. -/
def Own (world : World) : Prop := ∀ byte ∈ world.parser.bytesBuffer, byte.1 = world.connection

theorem run_concat (events : List Event) (event : Event) :
    World.run fromSlice (events ++ [event]) =
      (((World.run fromSlice events).1.step fromSlice event).1,
        (World.run fromSlice events).2 ++
          [((World.run fromSlice events).1.step fromSlice event).2]) :=
  (loop_append World.new events [event]).trans rfl

theorem bytesBuffer_streamStep {β : Type*} (parser : LiveBgpParser β) (event : StreamEvent β) :
    (parser.streamStep event).bytesBuffer = parser.bytesBuffer := by
  unfold streamStep
  rcases parser.streamHandle with _ | ⟨_ | _⟩ <;> cases event <;> rfl

theorem Own.streamStep (h : Own self) (event : StreamEvent UInt8) :
    Own (self.streamStep event) := by
  obtain ⟨hparser, hconnection⟩ := World.parser_streamStep self event
  unfold Own
  rw [hparser, bytesBuffer_streamStep, hconnection]
  exact h

theorem Own.streamSteps (h : Own self) (during : List (StreamEvent UInt8)) :
    Own (during.foldl World.streamStep self) := by
  induction during generalizing self with
  | nil => exact h
  | cons event rest ih => exact ih (h.streamStep event)

theorem Own.restart (h : Own self) (hconsistent : Consistent self)
    (hclean : Finished self → self.parser.bytesBuffer = []) : Own self.restart := by
  unfold World.restart
  by_cases hrunning : self.parser.isRunning = true
  · rw [if_pos hrunning]
    exact h
  · have hempty : self.parser.bytesBuffer = [] := by
      rcases hhandle : self.parser.streamHandle with _ | ⟨_ | _⟩
      · exact hconsistent.idle hhandle
      · simp [isRunning, hhandle] at hrunning
      · exact hclean hhandle
    rw [if_neg hrunning]
    intro byte hbyte
    rw [hempty] at hbyte
    exact absurd hbyte List.not_mem_nil

/-- One call on bytes of the current connection. -/
theorem Own.process (h : Own self) (hconsistent : Consistent self)
    (hhandle : self.parser.streamHandle ≠ none) (links : Links) :
    Own (self.process fromSlice links).1 ∧ Separates (self.process fromSlice links).2 := by
  obtain ⟨hkept, -, -, hhanded⟩ := @process_spec fromSlice _ hconsistent hhandle links
  have hbytes := @bytes_process fromSlice _ hconsistent hhandle links
  have htaken := @current_taken fromSlice _ hconsistent hhandle links
  have hall : ∀ byte ∈ self.parser.bytesBuffer ++
      (self.process fromSlice links).2.taken.flatten, byte.1 = self.connection := by
    intro byte hbyte
    rcases List.mem_append.mp hbyte with hold | hnew
    · exact h byte hold
    · exact htaken byte hnew
  rw [← hbytes] at hall
  refine ⟨?_, ?_, ?_⟩
  · intro byte hbyte
    obtain ⟨-, ⟨-, hbuffer, -⟩ | ⟨hbuffer, -⟩⟩ :=
      @deliverAll_cases _ Prod.snd fromSlice links self.parser
    · refine hall byte (List.mem_append_right _ ?_)
      rw [← hbuffer]
      exact hbyte
    · have hnil : (self.process fromSlice links).1.parser.bytesBuffer = [] := hbuffer
      rw [hnil] at hbyte
      exact absurd hbyte List.not_mem_nil
  · intro line hline byte hbyte byte' hbyte'
    rw [hhanded] at hline
    have hone := hall byte (List.mem_append_left _ (List.mem_flatten.mpr ⟨line, hline, hbyte⟩))
    have htwo := hall byte' (List.mem_append_left _ (List.mem_flatten.mpr ⟨line, hline, hbyte'⟩))
    rw [hone, htwo]
  · intro byte hbyte byte' hbyte'
    rw [hkept] at hbyte
    rw [h byte hbyte, htaken byte' hbyte']

theorem cleanRestarts_of_concat {events : List Event} {event : Event}
    (h : CleanRestarts fromSlice (events ++ [event])) : CleanRestarts fromSlice events := by
  intro before during links after hevents
  refine h before during links (after ++ [event]) ?_
  rw [hevents, List.append_assoc, List.cons_append]

theorem own_run {events : List Event} (h : CleanRestarts fromSlice events) :
    Own (World.run fromSlice events).1 ∧
      ∀ turn ∈ (World.run fromSlice events).2, Separates turn := by
  induction events using List.reverseRecOn with
  | nil =>
    refine ⟨?_, ?_⟩
    · intro byte hbyte
      exact absurd hbyte List.not_mem_nil
    · intro turn hturn
      exact absurd hturn List.not_mem_nil
  | append_singleton events event ih =>
    obtain ⟨hown, hturns⟩ := ih (cleanRestarts_of_concat h)
    have hconsistent := @consistent_run fromSlice events
    have hquiet : Separates ⟨[], [], []⟩ := by constructor <;> simp
    have hstep : Own ((World.run fromSlice events).1.step fromSlice event).1 ∧
        Separates ((World.run fromSlice events).1.step fromSlice event).2 := by
      cases event with
      | stream event => exact ⟨hown.streamStep event, hquiet⟩
      | work during links =>
        have hrestart := hown.restart hconsistent (h events during links [] rfl)
        exact (hrestart.streamSteps during).process (hconsistent.restart.streamSteps during)
          (streamHandle_streamSteps (streamHandle_restart _) during) links
      | stop =>
        refine ⟨?_, hquiet⟩
        intro byte hbyte
        exact absurd hbyte List.not_mem_nil
    rw [run_concat]
    refine ⟨hstep.1, ?_⟩
    intro turn hturn
    rcases List.mem_append.mp hturn with hold | hnew
    · exact hturns turn hold
    · rw [List.mem_singleton.mp hnew]
      exact hstep.2

/-- A byte that comes right after a replacement is appended to what the buffer held. -/
theorem not_separates_of_left {events : List Event}
    (hfinished : Finished (World.run fromSlice events).1)
    (hleft : (World.run fromSlice events).1.parser.bytesBuffer ≠ []) (links : Links) :
    ∃ turn ∈ (World.run fromSlice (events ++ [.work [.deliver [newline]] links])).2,
      ¬ Separates turn := by
  rw [run_concat]
  refine ⟨_, List.mem_append_right _ List.mem_cons_self, ?_⟩
  intro hseparates
  have hconsistent := @consistent_run fromSlice events
  generalize (World.run fromSlice events).1 = world at hfinished hleft hseparates hconsistent
  obtain ⟨byte, hbyte⟩ := List.exists_mem_of_ne_nil _ hleft
  have holder := hconsistent.older byte hbyte
  have hnot : world.parser.isRunning = false := by
    have hhandle : world.parser.streamHandle = some ⟨true⟩ := hfinished
    simp [isRunning, hhandle]
  have hrestart : world.restart =
      ⟨{ world.parser with byteStreamReceiver := some [], streamHandle := some ⟨false⟩ },
        world.connection + 1, world.parser.bytesBuffer, [], [], []⟩ := by
    simp [World.restart, hnot]
  have hturn : (world.step fromSlice (.work [.deliver [newline]] links)).2.kept =
      world.parser.bytesBuffer ∧
      (world.step fromSlice (.work [.deliver [newline]] links)).2.taken =
        [[(world.connection + 1, newline)]] := by
    unfold World.step World.work
    rw [hrestart]
    exact ⟨rfl, rfl⟩
  have hsame := hseparates.kept byte (hturn.1 ▸ hbyte) (world.connection + 1, newline)
    (by rw [hturn.2]; simp)
  simp only at hsame
  omega

/-- In every run whose replacements find an empty buffer, the bytes of two connections are
never joined; and a replacement that finds bytes left can join them at once. -/
theorem separates_of_cleanRestarts (fromSlice : List UInt8 → Except String RisLiveMessage) :
    (∀ events, CleanRestarts fromSlice events →
      ∀ turn ∈ (World.run fromSlice events).2, Separates turn) ∧
    ∀ events, Finished (World.run fromSlice events).1 →
      (World.run fromSlice events).1.parser.bytesBuffer ≠ [] → ∀ links, ∃ during,
        ∃ turn ∈ (World.run fromSlice (events ++ [.work during links])).2, ¬ Separates turn := by
  constructor
  · intro events hclean
    exact (own_run hclean).2
  · intro events hfinished hleft links
    exact ⟨_, not_separates_of_left hfinished hleft links⟩

/-- A connection ends behind these bytes, while the parser works on it. -/
def ended (bytes : List UInt8) : List Event :=
  [.work [.deliver bytes, .finish] (fun _ => Channel.create 1)]

/-- Two connections, each of which delivers a line and ends. -/
def endedTwice : List Event :=
  ended sampleLine ++ ended sampleLine ++ [.work [] (fun _ => Channel.create 1)]

set_option maxRecDepth 10000 in
theorem cleanRestarts_endedTwice : CleanRestarts sampleFromSlice endedTwice := by
  intro before during links after hevents _
  obtain ⟨n, hlt, rfl⟩ := exists_take hevents
  rcases n with _ | _ | _ | n
  · rfl
  · rfl
  · rfl
  · simp only [endedTwice, ended, List.length_append, List.length_cons, List.length_nil] at hlt
    omega

set_option maxRecDepth 10000 in
theorem separates_of_cleanRestarts_endedTwice :
    (World.run sampleFromSlice endedTwice).2.map Turn.handed =
        [[tag 1 sampleLine], [tag 2 sampleLine], []] ∧
      (∀ turn ∈ (World.run sampleFromSlice endedTwice).2, Separates turn) ∧
      ∃ during, ∃ turn ∈ (World.run sampleFromSlice
        (ended (sampleLine.take 20) ++ [.work during (fun _ => Channel.create 1)])).2,
          ¬ Separates turn :=
  ⟨rfl, (separates_of_cleanRestarts sampleFromSlice).1 _ cleanRestarts_endedTwice,
    (separates_of_cleanRestarts sampleFromSlice).2 (ended (sampleLine.take 20)) rfl
      (List.cons_ne_nil _ _) _⟩

/-- The brace left by the first connection and the brace of the second are handed over as
one line. -/
theorem not_separates_ended_brace :
    ∃ turn ∈ (World.run refuseBraces
        (ended [0x7b] ++ [.work [.deliver [0x7d, 0x0a]] (fun _ => Channel.create 1)])).2,
      turn.handed = [[(1, 0x7b), (2, 0x7d), (2, 0x0a)]] ∧ ¬ Separates turn := by
  refine ⟨_, List.mem_cons_of_mem _ List.mem_cons_self, rfl, ?_⟩
  intro hseparates
  have hsame := hseparates.lines [(1, 0x7b), (2, 0x7d), (2, 0x0a)] List.mem_cons_self (1, 0x7b)
    List.mem_cons_self (2, 0x7d) (List.mem_cons_of_mem _ List.mem_cons_self)
  exact absurd hsame (by decide)

end Separation

end NetfabricBgp.StreamConnections
