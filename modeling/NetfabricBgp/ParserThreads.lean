import NetfabricBgp.SessionBatches
import NetfabricBgp.ThreadSteps

/-!
The live parser in a thread of its own, beside those of a network. Its `work` is taken apart into
the start of the stream, the processing of the buffer, and the rounds of the loops in which its
sessions send. In between, the task of the stream delivers and the other threads act.
-/
namespace NetfabricBgp.ParserThreads

open RouterMasks Advertisements BoundedQueues Channels Interfaces Sessions Processes StateMachines
  LinkThreads LiveParsers LiveBgpParser ProcessThreads ThreadSteps

/-- Where the parser is in its `work`: before it, behind the start of the stream, before or inside
the loop of a session's `send`. After a Stop it does no more. -/
inductive Position
  | work
  | process
  | send (session : ℕ)
  | sending (session : ℕ) (rest : List Advertisement)
  | stopped

structure ParserThread where
  parser : LiveBgpParser UInt8
  position : Position

/-- What a step shows: an effect on a channel, or lines that were handed to the decoder. -/
inductive Shown
  | effect (effect : Effect)
  | lines (handed : List (List UInt8))

namespace ParserThread

def start (parser : LiveBgpParser UInt8) : ParserThread := ⟨parser, .work⟩

def interfaceAt (self : ParserThread) (n : ℕ) : Option Interface :=
  self.parser.bgpSessions[n]?.bind (·.interface)

def setInterface (self : ParserThread) (n : ℕ) (interface : Interface) : ParserThread :=
  { self with parser :=
    { self.parser with
      bgpSessions := self.parser.bgpSessions.modify n (·.withInterface interface) } }

def atPosition (self : ParserThread) (position : Position) : ParserThread :=
  { self with position := position }

/-- A `work` that ends with an error. -/
def failed (parser : LiveBgpParser UInt8) (text : String) : ParserThread :=
  let parser := parser.fail text
  match parser.onError with
  | .Stop => ⟨parser, .stopped⟩
  | _ => ⟨parser, .work⟩

/-- A session's `send` up to the loop of its interface. After the last session the advertisements
are cleared, and the `work` is over. -/
def beginSend (self : ParserThread) (n : ℕ) : ParserThread :=
  if n < self.parser.bgpSessions.length then
    match self.interfaceAt n with
    | none => self.atPosition (.send (n + 1))
    | some interface =>
      let pushed := (interface.pushOutgoingAdvertisements self.parser.advertisements).1
      let endpoint := (Endpoint.begin pushed .send).1
      match endpoint.activity with
      | .sending rest => (self.setInterface n endpoint.interface).atPosition (.sending n rest)
      | _ => (self.setInterface n endpoint.interface).atPosition (.send (n + 1))
  else ⟨{ self.parser with advertisements := [] }, .work⟩

/-- A round of the loop of an interface's `send`. -/
def sendRound (self : ParserThread) (n : ℕ) (interface : Interface) (links : Links)
    (ad : Advertisement) (rest : List Advertisement) : Links × ParserThread × Option Effect :=
  let (keep, ad) := interface.outFilter ad
  if keep then
    match interface.outChannel with
    | none => (links, self.atPosition (.send (n + 1)), none)
    | some id =>
      match (links id).trySend (.advertisement ad) with
      | .ok channel =>
        (Function.update links id channel, self.atPosition (.sending n rest),
          some (.put id (.advertisement ad)))
      | .error _ =>
        (links, self.atPosition (.send (n + 1)), some (.refuse id (.advertisement ad)))
  else (links, self.atPosition (.sending n rest), none)

variable (fromSlice : List UInt8 → Except String RisLiveMessage)

def step (self : ParserThread) (links : Links) : Links × ParserThread × Option Shown :=
  match self.position with
  | .work =>
    match self.parser.ensureStream with
    | .error e =>
      (links, failed self.parser ("Couldn't start bgp live stream! " ++ e.message), none)
    | .ok parser => (links, ⟨parser, .process⟩, none)
  | .process =>
    match LiveBgpParser.processBuffer id fromSlice self.parser with
    | (.error e, parser, handed) =>
      (links, failed parser ("Couldn't process buffer! " ++ e.message ++
        ". Timeout for 1 sec to give routers time to catch up."), some (.lines handed))
    | (.ok (), parser, handed) => (links, ⟨parser, .send 0⟩, some (.lines handed))
  | .send n => (links, self.beginSend n, none)
  | .sending n [] => (links, self.atPosition (.send (n + 1)), none)
  | .sending n (ad :: rest) =>
    match self.interfaceAt n with
    | none => (links, self.atPosition (.send (n + 1)), none)
    | some interface =>
      let (links, thread, effect) := self.sendRound n interface links ad rest
      (links, thread, effect.map .effect)
  | .stopped => (links, self, none)

/-- The task of the stream acts. -/
def stream (self : ParserThread) (event : StreamEvent UInt8) : ParserThread :=
  { self with parser := self.parser.streamStep event }

end ParserThread

/-- The threads of a network and of a parser. -/
structure LiveThreads (ι : Type*) where
  threads : Threads ι
  parser : ParserThread

/-- A thread of the network or that of the parser takes a step, or the task of the stream acts. -/
inductive Event (ι : Type*)
  | act (thread : ι) (instant : Instant)
  | parse
  | stream (event : StreamEvent UInt8)

/-- What an event shows, and of which thread of the network. -/
inductive Report (ι : Type*)
  | effect (entry : Option ι × Effect)
  | lines (handed : List (List UInt8))

/-- What the parser shows is, for the network, outside. -/
def Shown.report (ι : Type*) : Shown → Report ι
  | .effect done => .effect (none, done)
  | .lines handed => .lines handed

def Report.entry {ι : Type*} : Report ι → Option (Option ι × Effect)
  | .effect entry => some entry
  | .lines _ => none

def Report.handed {ι : Type*} : Report ι → List (List UInt8)
  | .effect _ => []
  | .lines handed => handed

section Steps
variable {ι : Type*} [DecidableEq ι] (forms : TextForms)
  (fromSlice : List UInt8 → Except String RisLiveMessage)

def step (self : LiveThreads ι) : Event ι → Except Panic (LiveThreads ι × Option (Report ι))
  | .act i instant =>
    (ProcessThreads.step forms self.threads (.act i instant)).map
      (fun reached => (⟨reached.1, self.parser⟩, reached.2.map .effect))
  | .parse =>
    let (links, parser, shown) := self.parser.step fromSlice self.threads.shared.links
    .ok (⟨⟨self.threads.thread, { self.threads.shared with links := links }⟩, parser⟩,
      shown.map (Shown.report ι))
  | .stream event => .ok (⟨self.threads, self.parser.stream event⟩, none)

def run (self : LiveThreads ι) (events : List (Event ι)) :
    Except Panic (LiveThreads ι × List (Report ι)) :=
  Runs.collect (step forms fromSlice) self events

end Steps

/-- The effects of a run, those of the parser from outside. -/
def effects {ι : Type*} (log : List (Report ι)) : List (Option ι × Effect) :=
  log.filterMap Report.entry

/-- The lines that the parser has handed to the decoder. -/
def lines {ι : Type*} (log : List (Report ι)) : List (List UInt8) := log.flatMap Report.handed

end NetfabricBgp.ParserThreads
