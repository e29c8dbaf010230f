import NetfabricBgp.LineFraming
import NetfabricBgp.Processes
import NetfabricBgp.StateMachines

/-!
The parser of the live stream. A task puts the chunks of a connection into a channel, and
the parser takes them out, cuts the bytes into lines and turns the lines into
advertisements. The JSON decoder is a parameter, and so is the type of bytes, from which
only the value of a byte is read. Counters are natural numbers and times are left out.
-/
namespace NetfabricBgp.LiveParsers

open Routes Advertisements Channels Sessions Processes StateMachines LineFraming

/-- The fields of a RIS message that become an advertisement. -/
structure RisLiveData where
  timestamp : UInt64
  peer : String
  peerAsn : String
  id : String
  raw : Option String
  host : String
  msgType : AdvertisementType
  path : Option Path
  community : Option (List (List UInt64))
  origin : Option String
  announcements : Option (List Announcement)
  withdrawals : Option (List String)
deriving DecidableEq

structure RisLiveMessage where
  msgType : String
  data : RisLiveData
deriving DecidableEq

def ofRisLiveData (risLiveData : RisLiveData) : Advertisement where
  timestamp := risLiveData.timestamp
  peer := risLiveData.peer
  peerAsn := risLiveData.peerAsn
  id := risLiveData.id
  host := risLiveData.host
  msgType := risLiveData.msgType
  path := risLiveData.path
  community := risLiveData.community
  origin := risLiveData.origin
  announcements := risLiveData.announcements
  raw := risLiveData.raw
  withdrawals := risLiveData.withdrawals

inductive RestartPolicy
  | StopOnError
  | RestartOnError
deriving DecidableEq

def RestartPolicy.default : RestartPolicy := .RestartOnError

inductive BgpParserError
  | StreamError (text : String)
  | ParseError (text : String)
  | SendError (text : String)
  | StreamEnded
  | InterfaceError (text : String)
deriving DecidableEq

def BgpParserError.message : BgpParserError → String
  | .StreamError text => "Failed to fetch stream: " ++ text
  | .ParseError text => "Failed to parse message: " ++ text
  | .SendError text => "Failed to send message: " ++ text
  | .StreamEnded => "Stream ended unexpectedly"
  | .InterfaceError text => "Interface error: " ++ text

structure LiveBgpParserStatistics where
  messagesProcessed : ℕ
  bytesReceived : ℕ
  errorsEncountered : ℕ
  lastError : Option String
deriving DecidableEq

def LiveBgpParserStatistics.default : LiveBgpParserStatistics := ⟨0, 0, 0, none⟩

/-- The handle of a task, as far as the parser asks it. -/
structure StreamHandle where
  isFinished : Bool
deriving DecidableEq

/-- The receiver is the list of the chunks in its channel. -/
structure LiveBgpParser (β : Type*) where
  streamHandle : Option StreamHandle
  byteStreamReceiver : Option (List (List β))
  bytesBuffer : List β
  advertisements : List Advertisement
  restartPolicy : RestartPolicy
  statistics : LiveBgpParserStatistics
  bgpSessions : List BgpSession

def newline : UInt8 := 10

namespace LiveBgpParser

section Streams
variable {β : Type*}

def new : LiveBgpParser β where
  streamHandle := none
  byteStreamReceiver := none
  bytesBuffer := []
  advertisements := []
  restartPolicy := RestartPolicy.default
  statistics := LiveBgpParserStatistics.default
  bgpSessions := []

/-- A new task with a new channel; the line buffer is left as it is. -/
def startStream (self : LiveBgpParser β) : Except BgpParserError (LiveBgpParser β) :=
  .ok { self with byteStreamReceiver := some [], streamHandle := some ⟨false⟩ }

def stopStream (self : LiveBgpParser β) : LiveBgpParser β :=
  { self with streamHandle := none, byteStreamReceiver := none, bytesBuffer := [] }

/-- What the task of a stream does on its own. -/
inductive StreamEvent (β : Type*)
  | deliver (bytes : List β)
  | finish

/-- The task acts while it runs; without a running task nothing happens. -/
def streamStep (self : LiveBgpParser β) (event : StreamEvent β) : LiveBgpParser β :=
  match self.streamHandle with
  | some ⟨false⟩ =>
    match event with
    | .deliver bytes =>
      { self with byteStreamReceiver := self.byteStreamReceiver.map (· ++ [bytes]) }
    | .finish => { self with streamHandle := some ⟨true⟩ }
  | _ => self

/-- One chunk taken from the channel. -/
def extend (self : LiveBgpParser β) (bytes : List β) : LiveBgpParser β :=
  { self with
    bytesBuffer := self.bytesBuffer ++ bytes
    statistics := { self.statistics with
      bytesReceived := self.statistics.bytesReceived + bytes.length } }

/-- All chunks of the channel are written to the buffer. -/
def drain (self : LiveBgpParser β) (chunks : List (List β)) : LiveBgpParser β :=
  chunks.foldl extend { self with byteStreamReceiver := some [] }

end Streams

section Lines
variable {β : Type*} (value : β → UInt8) (fromSlice : List UInt8 → Except String RisLiveMessage)

def isNewline (byte : β) : Bool := value byte = newline

/-- A decoded message becomes an advertisement when its type says so. -/
def accept (self : LiveBgpParser β) (message : RisLiveMessage) : LiveBgpParser β :=
  if message.msgType = "ris_message" then
    { self with
      advertisements := self.advertisements ++ [ofRisLiveData message.data]
      statistics := { self.statistics with
        messagesProcessed := self.statistics.messagesProcessed + 1 } }
  else self

/-- The loop over the lines, with the lines it handed to the decoder. Each round takes at
least one byte, so the length of the buffer bounds the rounds. -/
def processLines : ℕ → LiveBgpParser β →
    Except BgpParserError Unit × LiveBgpParser β × List (List β)
  | 0, self => (.ok (), self, [])
  | n + 1, self =>
    match self.bytesBuffer.findIdx? (isNewline value) with
    | none => (.ok (), self, [])
    | some pos =>
      let chunk := self.bytesBuffer.take (pos + 1)
      let self := { self with bytesBuffer := self.bytesBuffer.drop (pos + 1) }
      match fromSlice (chunk.map value) with
      | .error text => (.error (.ParseError text), self, [chunk])
      | .ok message =>
        let (result, self, handed) := processLines n (accept self message)
        (result, self, chunk :: handed)

/-- The result, and the lines handed to the decoder beside it. -/
def processBuffer (self : LiveBgpParser β) :
    Except BgpParserError Unit × LiveBgpParser β × List (List β) :=
  match self.byteStreamReceiver with
  | none => (.error (.StreamError "No receiver found"), self, [])
  | some chunks =>
    let self := self.drain chunks
    processLines value fromSlice self.bytesBuffer.length self

/-- The statistics after a failure, and the stream stopped. -/
def fail (self : LiveBgpParser β) (text : String) : LiveBgpParser β :=
  stopStream { self with
    statistics := { self.statistics with
      errorsEncountered := self.statistics.errorsEncountered + 1
      lastError := some text } }

def onError (self : LiveBgpParser β) : StateTransition (LiveBgpParser β) :=
  match self.restartPolicy with
  | .StopOnError => .Stop
  | .RestartOnError => .Continue

def isRunning (self : LiveBgpParser β) : Bool :=
  match self.streamHandle with
  | none => false
  | some handle => !handle.isFinished

/-- A start when no task runs. -/
def ensureStream (self : LiveBgpParser β) : Except BgpParserError (LiveBgpParser β) :=
  if self.isRunning then .ok self else self.startStream

/-- The second half of `work`: the buffer is processed and the advertisements are sent. -/
def deliverAll (links : Links) (self : LiveBgpParser β) :
    Links × LiveBgpParser β × StateTransition (LiveBgpParser β) × List (List β) :=
  match processBuffer value fromSlice self with
  | (.error e, self, handed) =>
    let self := self.fail ("Couldn't process buffer! " ++ e.message ++
      ". Timeout for 1 sec to give routers time to catch up.")
    (links, self, self.onError, handed)
  | (.ok (), self, handed) =>
    let (links, sessions) := sendSessions self.advertisements links self.bgpSessions
    (links, { self with bgpSessions := sessions, advertisements := [] }, .Continue, handed)

/-- One call of `work`. The stream's task may act between the start and the processing. -/
def work (during : List (StreamEvent β)) (links : Links) (self : LiveBgpParser β) :
    Links × LiveBgpParser β × StateTransition (LiveBgpParser β) × List (List β) :=
  match self.ensureStream with
  | .error e =>
    let self := self.fail ("Couldn't start bgp live stream! " ++ e.message)
    (links, self, self.onError, [])
  | .ok self => deliverAll value fromSlice links (during.foldl streamStep self)

end Lines

end LiveBgpParser

/-- The line of a message in which a host announces 10.0.0.0/8, as bytes. -/
def sampleLine : List UInt8 :=
  [123, 34, 116, 121, 112, 101, 34, 58, 34, 114, 105, 115, 95, 109, 101, 115, 115, 97, 103, 101,
    34, 44, 34, 100, 97, 116, 97, 34, 58, 123, 34, 116, 105, 109, 101, 115, 116, 97, 109, 112, 34,
    58, 48, 46, 48, 44, 34, 112, 101, 101, 114, 34, 58, 34, 49, 48, 46, 48, 46, 48, 46, 50, 34,
    44, 34, 112, 101, 101, 114, 95, 97, 115, 110, 34, 58, 34, 34, 44, 34, 105, 100, 34, 58, 34,
    34, 44, 34, 104, 111, 115, 116, 34, 58, 34, 114, 114, 99, 49, 53, 46, 114, 105, 112, 101, 46,
    110, 101, 116, 34, 44, 34, 116, 121, 112, 101, 34, 58, 34, 85, 80, 68, 65, 84, 69, 34, 44, 34,
    97, 110, 110, 111, 117, 110, 99, 101, 109, 101, 110, 116, 115, 34, 58, 91, 123, 34, 110, 101,
    120, 116, 95, 104, 111, 112, 34, 58, 34, 49, 48, 46, 48, 46, 48, 46, 50, 34, 44, 34, 112, 114,
    101, 102, 105, 120, 101, 115, 34, 58, 91, 34, 49, 48, 46, 48, 46, 48, 46, 48, 47, 56, 34, 93,
    125, 93, 125, 125, 10]

def sampleData : RisLiveData where
  timestamp := 0
  peer := "10.0.0.2"
  peerAsn := ""
  id := ""
  raw := none
  host := "rrc15.ripe.net"
  msgType := .Update
  path := none
  community := none
  origin := none
  announcements := some [⟨"10.0.0.2", ["10.0.0.0/8"]⟩]
  withdrawals := none

/-- The decoder, as far as this line goes. -/
def sampleFromSlice (line : List UInt8) : Except String RisLiveMessage :=
  if line = sampleLine then .ok ⟨"ris_message", sampleData⟩
  else .error "expected value at line 1 column 1"

end NetfabricBgp.LiveParsers
