import NetfabricBgp.LiveParsers
import Mathlib.Tactic.ByContra

/-!
The line buffer against the stream it was filled from. However a stream is cut into
chunks, and wherever the buffer is processed in between, the lines handed to the decoder
are the lines of the stream: the consumed lines, the buffer and the channel together are
always the bytes delivered so far.
-/
namespace NetfabricBgp.LineDeliveries

open Advertisements Channels LineFraming Loops LiveParsers LiveBgpParser

section Lines
variable {β : Type*} (value : β → UInt8) (fromSlice : List UInt8 → Except String RisLiveMessage)

/-- The line does not decode. -/
def fails (line : List β) : Bool :=
  match fromSlice (line.map value) with
  | .error _ => true
  | .ok _ => false

/-- The advertisement of a line that decodes to a message of the right type. -/
def announced (line : List β) : Option Advertisement :=
  match fromSlice (line.map value) with
  | .error _ => none
  | .ok message =>
    if message.msgType = "ris_message" then some (ofRisLiveData message.data) else none

def isErr {ε α : Type*} : Except ε α → Bool
  | .error _ => true
  | .ok _ => false

/-- What the loop over the lines does: it hands complete lines from the front of the buffer
to the decoder, up to the first one that fails or to the open line. -/
structure Processed (start : LiveBgpParser β)
    (outcome : Except BgpParserError Unit × LiveBgpParser β × List (List β)) : Prop where
  complete : ∀ line ∈ outcome.2.2, IsLine (isNewline value) line
  bytes : outcome.2.2.flatten ++ outcome.2.1.bytesBuffer = start.bytesBuffer
  advertisements : outcome.2.1.advertisements =
    start.advertisements ++ outcome.2.2.filterMap (announced value fromSlice)
  messages : outcome.2.1.statistics.messagesProcessed = start.statistics.messagesProcessed +
    (outcome.2.2.filterMap (announced value fromSlice)).length
  failures : outcome.2.2.countP (fails value fromSlice) = if isErr outcome.1 then 1 else 0
  emptied : isErr outcome.1 = false → ∀ b ∈ outcome.2.1.bytesBuffer, isNewline value b = false
  receiver : outcome.2.1.byteStreamReceiver = start.byteStreamReceiver
  handle : outcome.2.1.streamHandle = start.streamHandle
  received : outcome.2.1.statistics.bytesReceived = start.statistics.bytesReceived

variable {value fromSlice}

theorem Processed.none {self : LiveBgpParser β}
    (h : self.bytesBuffer.findIdx? (isNewline value) = none) :
    Processed value fromSlice self (.ok (), self, []) where
  complete := by simp
  bytes := by simp
  advertisements := by simp
  messages := by simp
  failures := rfl
  emptied := fun _ => List.findIdx?_eq_none_iff.mp h
  receiver := rfl
  handle := rfl
  received := rfl

theorem Processed.error {self next : LiveBgpParser β} {line : List β} {text : String}
    (hline : IsLine (isNewline value) line) (herror : fromSlice (line.map value) = .error text)
    (hself : self.bytesBuffer = line ++ next.bytesBuffer)
    (hnext : next = { self with bytesBuffer := next.bytesBuffer }) :
    Processed value fromSlice self (.error (.ParseError text), next, [line]) where
  complete := by simpa using hline
  bytes := by simpa using hself.symm
  advertisements := by
    rw [hnext]
    simp [announced, herror]
  messages := by
    rw [hnext]
    simp [announced, herror]
  failures := by simp [fails, herror, isErr]
  emptied := by simp [isErr]
  receiver := by rw [hnext]
  handle := by rw [hnext]
  received := by rw [hnext]

theorem accept_bytesBuffer (self : LiveBgpParser β) (message : RisLiveMessage) :
    (accept self message).bytesBuffer = self.bytesBuffer := by
  unfold accept
  by_cases h : message.msgType = "ris_message" <;> simp [h]

theorem announced_of_ok {line : List β} {message : RisLiveMessage}
    (h : fromSlice (line.map value) = .ok message) (self : LiveBgpParser β) :
    (accept self message).advertisements =
        self.advertisements ++ (announced value fromSlice line).toList ∧
      (accept self message).statistics.messagesProcessed = self.statistics.messagesProcessed +
        (announced value fromSlice line).toList.length := by
  unfold accept announced
  rw [h]
  by_cases htype : message.msgType = "ris_message" <;> simp [htype]

theorem accept_frame (self : LiveBgpParser β) (message : RisLiveMessage) :
    (accept self message).byteStreamReceiver = self.byteStreamReceiver ∧
      (accept self message).streamHandle = self.streamHandle ∧
      (accept self message).statistics.bytesReceived = self.statistics.bytesReceived := by
  unfold accept
  by_cases h : message.msgType = "ris_message" <;> simp [h]

/-- One line that decodes, and then what the loop does with the rest. -/
theorem Processed.cons {self next : LiveBgpParser β} {line : List β} {message : RisLiveMessage}
    {outcome : Except BgpParserError Unit × LiveBgpParser β × List (List β)}
    (hline : IsLine (isNewline value) line) (hok : fromSlice (line.map value) = .ok message)
    (hself : self.bytesBuffer = line ++ next.bytesBuffer)
    (hnext : next = { self with bytesBuffer := next.bytesBuffer })
    (h : Processed value fromSlice (accept next message) outcome) :
    Processed value fromSlice self (outcome.1, outcome.2.1, line :: outcome.2.2) := by
  obtain ⟨hads, hcount⟩ := announced_of_ok hok next
  obtain ⟨hreceiver, hhandle, hreceived⟩ := accept_frame next message
  have hnext_ads : next.advertisements = self.advertisements := by rw [hnext]
  have hnext_stats : next.statistics = self.statistics := by rw [hnext]
  have hfilter : (line :: outcome.2.2).filterMap (announced value fromSlice) =
      (announced value fromSlice line).toList ++
        outcome.2.2.filterMap (announced value fromSlice) := by
    cases hannounced : announced value fromSlice line <;> simp [hannounced]
  have hfails : fails value fromSlice line = false := by rw [fails, hok]
  refine ⟨?_, ?_, ?_, ?_, ?_, h.emptied, ?_, ?_, ?_⟩
  · exact List.forall_mem_cons.mpr ⟨hline, h.complete⟩
  · have hbytes := h.bytes
    rw [accept_bytesBuffer] at hbytes
    rw [List.flatten_cons, List.append_assoc, hbytes, hself]
  · rw [h.advertisements, hads, hnext_ads, hfilter, List.append_assoc]
  · rw [h.messages, hcount, hnext_stats, hfilter, List.length_append]
    omega
  · rw [List.countP_cons, h.failures, hfails]
    simp
  · rw [h.receiver, hreceiver, hnext]
  · rw [h.handle, hhandle, hnext]
  · rw [h.received, hreceived, hnext_stats]

theorem processLines_spec {n : ℕ} {self : LiveBgpParser β} (hn : self.bytesBuffer.length ≤ n) :
    Processed value fromSlice self (processLines value fromSlice n self) := by
  induction n generalizing self with
  | zero =>
    have hnil : self.bytesBuffer = [] := List.length_eq_zero_iff.mp (by omega)
    exact Processed.none (by rw [hnil]; rfl)
  | succ n ih =>
    unfold processLines
    cases hpos : self.bytesBuffer.findIdx? (isNewline value) with
    | none => exact Processed.none hpos
    | some pos =>
      have hline := isLine_of_findIdx? hpos
      have hsplit := (List.take_append_drop (pos + 1) self.bytesBuffer).symm
      cases hslice : fromSlice ((self.bytesBuffer.take (pos + 1)).map value) with
      | error text =>
        simp only [hslice]
        exact Processed.error hline hslice hsplit rfl
      | ok message =>
        simp only [hslice]
        refine Processed.cons hline hslice hsplit rfl (ih ?_)
        rw [accept_bytesBuffer]
        have hlt := (List.findIdx?_eq_some_iff_getElem.mp hpos).1
        simp only [List.length_drop]
        omega

/-- Draining the channel appends its chunks to the buffer and counts their bytes. -/
theorem drain_eq (self : LiveBgpParser β) (chunks : List (List β)) :
    self.drain chunks = { self with
      byteStreamReceiver := some []
      bytesBuffer := self.bytesBuffer ++ chunks.flatten
      statistics := { self.statistics with
        bytesReceived := self.statistics.bytesReceived + chunks.flatten.length } } := by
  have hfold : ∀ parser : LiveBgpParser β, chunks.foldl extend parser = { parser with
      bytesBuffer := parser.bytesBuffer ++ chunks.flatten
      statistics := { parser.statistics with
        bytesReceived := parser.statistics.bytesReceived + chunks.flatten.length } } := by
    induction chunks with
    | nil =>
      intro parser
      simp
    | cons bytes rest ih =>
      intro parser
      rw [List.foldl_cons, ih]
      simp [extend, Nat.add_assoc]
  exact hfold _

/-- What one call does when a receiver is set. -/
theorem processBuffer_spec {self : LiveBgpParser β} {chunks : List (List β)}
    (hreceiver : self.byteStreamReceiver = some chunks) :
    Processed value fromSlice (self.drain chunks) (processBuffer value fromSlice self) := by
  unfold processBuffer
  rw [hreceiver]
  exact processLines_spec (Nat.le_refl _)

/-- A successful call keeps the buffer and the stream, and a failed one gives them up. -/
theorem deliverAll_cases (links : Links) (self : LiveBgpParser β) :
    (deliverAll value fromSlice links self).2.2.2 = (processBuffer value fromSlice self).2.2 ∧
    ((isErr (processBuffer value fromSlice self).1 = false ∧
      (deliverAll value fromSlice links self).2.1.bytesBuffer =
        (processBuffer value fromSlice self).2.1.bytesBuffer ∧
      (deliverAll value fromSlice links self).2.1.streamHandle =
        (processBuffer value fromSlice self).2.1.streamHandle ∧
      (deliverAll value fromSlice links self).2.1.byteStreamReceiver =
        (processBuffer value fromSlice self).2.1.byteStreamReceiver) ∨
    ((deliverAll value fromSlice links self).2.1.bytesBuffer = [] ∧
      (deliverAll value fromSlice links self).2.1.streamHandle = none)) := by
  unfold deliverAll
  rcases processBuffer value fromSlice self with ⟨_ | _, parser, handed⟩
  · exact ⟨rfl, Or.inr ⟨rfl, rfl⟩⟩
  · exact ⟨rfl, Or.inl ⟨rfl, rfl, rfl, rfl⟩⟩

end Lines

section Calls
variable {β : Type*} (value : β → UInt8) (fromSlice : List UInt8 → Except String RisLiveMessage)

/-- The two things that happen to a parser whose receiver stays set. -/
inductive Call (β : Type*)
  | deliver (bytes : List β)
  | processBuffer

/-- A call, with its result when it is one of `process_buffer`. -/
def call (self : LiveBgpParser β) :
    Call β → LiveBgpParser β × Option (Except BgpParserError Unit)
  | .deliver bytes =>
    ({ self with byteStreamReceiver := self.byteStreamReceiver.map (· ++ [bytes]) }, none)
  | .processBuffer =>
    let (result, self, _) := processBuffer value fromSlice self
    (self, some result)

def callAll (self : LiveBgpParser β) (calls : List (Call β)) :
    LiveBgpParser β × List (Option (Except BgpParserError Unit)) :=
  loop (fun _ => false) (call value fromSlice) self calls

/-- The bytes of a call, if it delivers some. -/
def Call.bytes : Call β → List β
  | .deliver bytes => bytes
  | .processBuffer => []

/-- The stream that the chunks were cut from. -/
def delivered (calls : List (Call β)) : List β := calls.flatMap Call.bytes

/-- The number of calls that returned an error. -/
def errCalls (results : List (Option (Except BgpParserError Unit))) : ℕ :=
  (results.filterMap id).countP isErr

/-- The parser has taken in exactly the lines of the stream. -/
structure Framed (start final : LiveBgpParser β) (stream : List β)
    (results : List (Option (Except BgpParserError Unit))) : Prop where
  advertisements : final.advertisements = start.advertisements ++
    (lines (isNewline value) stream).1.filterMap (announced value fromSlice)
  bytesBuffer : final.bytesBuffer = (lines (isNewline value) stream).2
  bytesReceived :
    final.statistics.bytesReceived = start.statistics.bytesReceived + stream.length
  messagesProcessed : final.statistics.messagesProcessed + start.advertisements.length =
    start.statistics.messagesProcessed + final.advertisements.length
  failures : errCalls results = (lines (isNewline value) stream).1.countP (fails value fromSlice)

/-- At any time: the lines handed so far, the buffer and the channel are the bytes
delivered so far. -/
structure Accounted (start parser : LiveBgpParser β) (stream : List β)
    (results : List (Option (Except BgpParserError Unit))) (handed : List (List β))
    (chunks : List (List β)) : Prop where
  receiver : parser.byteStreamReceiver = some chunks
  complete : ∀ line ∈ handed, IsLine (isNewline value) line
  bytes : handed.flatten ++ parser.bytesBuffer ++ chunks.flatten = stream
  advertisements : parser.advertisements =
    start.advertisements ++ handed.filterMap (announced value fromSlice)
  messages : parser.statistics.messagesProcessed =
    start.statistics.messagesProcessed + (handed.filterMap (announced value fromSlice)).length
  received : parser.statistics.bytesReceived = start.statistics.bytesReceived +
    (handed.flatten ++ parser.bytesBuffer).length
  failures : errCalls results = handed.countP (fails value fromSlice)

variable {value fromSlice}

theorem delivered_append (calls calls' : List (Call β)) :
    delivered (calls ++ calls') = delivered calls ++ delivered calls' := List.flatMap_append

theorem delivered_singleton (call : Call β) : delivered [call] = call.bytes := by
  simp [delivered]

theorem errCalls_append (results results' : List (Option (Except BgpParserError Unit))) :
    errCalls (results ++ results') = errCalls results + errCalls results' := by
  rw [errCalls, List.filterMap_append, List.countP_append]
  rfl

section Accounts
variable {start self : LiveBgpParser β} {stream : List β}
  {results : List (Option (Except BgpParserError Unit))} {handed chunks : List (List β)}

theorem Accounted.deliver (h : Accounted value fromSlice start self stream results handed chunks)
    (bytes : List β) :
    Accounted value fromSlice start (call value fromSlice self (.deliver bytes)).1
      (stream ++ bytes) (results ++ [none]) handed (chunks ++ [bytes]) where
  receiver := by
    show self.byteStreamReceiver.map (· ++ [bytes]) = _
    rw [h.receiver, Option.map_some]
  complete := h.complete
  bytes := by
    rw [← h.bytes]
    simp [call]
  advertisements := h.advertisements
  messages := h.messages
  received := h.received
  failures := by
    rw [errCalls_append, h.failures]
    rfl

/-- A call of `process_buffer` moves the channel into the buffer and hands over more lines. -/
theorem Accounted.processBuffer
    (h : Accounted value fromSlice start self stream results handed chunks) :
    Accounted value fromSlice start (call value fromSlice self .processBuffer).1 stream
      (results ++ [(call value fromSlice self .processBuffer).2])
      (handed ++ (LiveBgpParser.processBuffer value fromSlice self).2.2) [] := by
  have hspec := @processBuffer_spec _ value fromSlice _ _ h.receiver
  rw [drain_eq] at hspec
  have hbytes := hspec.bytes
  simp only at hbytes
  have hall : (handed ++ (LiveBgpParser.processBuffer value fromSlice self).2.2).flatten ++
      (LiveBgpParser.processBuffer value fromSlice self).2.1.bytesBuffer = stream := by
    rw [List.flatten_append, List.append_assoc, hbytes, ← List.append_assoc, h.bytes]
  refine ⟨?_, ?_, ?_, ?_, ?_, ?_, ?_⟩
  · exact hspec.receiver
  · intro line hline
    rcases List.mem_append.mp hline with hline | hline
    · exact h.complete line hline
    · exact hspec.complete line hline
  · rw [List.flatten_nil, List.append_nil]
    exact hall
  · rw [List.filterMap_append, ← List.append_assoc, ← h.advertisements]
    exact hspec.advertisements
  · rw [List.filterMap_append, List.length_append, ← Nat.add_assoc, ← h.messages]
    exact hspec.messages
  · have hreceived := hspec.received
    have hold := h.received
    have hlength := congrArg List.length h.bytes
    have hnew := congrArg List.length hall
    simp only [List.length_append] at hreceived hold hlength hnew ⊢
    show (LiveBgpParser.processBuffer value fromSlice self).2.1.statistics.bytesReceived = _ +
      (_ + (LiveBgpParser.processBuffer value fromSlice self).2.1.bytesBuffer.length)
    omega
  · rw [errCalls_append, List.countP_append, h.failures, hspec.failures]
    congr 1
    show errCalls [some (LiveBgpParser.processBuffer value fromSlice self).1] = _
    cases hresult : (LiveBgpParser.processBuffer value fromSlice self).1 <;>
      simp [errCalls, isErr]

theorem accounted_start (hreceiver : start.byteStreamReceiver = some [])
    (hbuffer : start.bytesBuffer = []) :
    Accounted value fromSlice start start [] [] [] [] where
  receiver := hreceiver
  complete := by simp
  bytes := by simp [hbuffer]
  advertisements := by simp
  messages := by simp
  received := by simp [hbuffer]
  failures := rfl

theorem accounted_callAll (hreceiver : start.byteStreamReceiver = some [])
    (hbuffer : start.bytesBuffer = []) (calls : List (Call β)) :
    ∃ handed chunks, Accounted value fromSlice start (callAll value fromSlice start calls).1
      (delivered calls) (callAll value fromSlice start calls).2 handed chunks := by
  have h := @history _ _ _ (fun _ => false) (call value fromSlice)
    (fun self calls results => ∃ handed chunks,
      Accounted value fromSlice start self (delivered calls) results handed chunks) ?_
    _ ⟨[], [], accounted_start hreceiver hbuffer⟩ calls
  · rwa [length_log_of_running rfl, List.take_length] at h
  · intro self ins outs i _ h
    obtain ⟨handed, chunks, h⟩ := h
    cases i with
    | deliver bytes =>
      refine ⟨handed, chunks ++ [bytes], ?_⟩
      rw [delivered_append, delivered_singleton]
      exact h.deliver bytes
    | processBuffer =>
      rw [delivered_append, delivered_singleton, Call.bytes, List.append_nil]
      exact ⟨_, [], h.processBuffer⟩

end Accounts

/-- However a stream is cut into chunks, and wherever `process_buffer` is called, when the
last call comes after the last chunk and succeeds, the parser has taken in the lines of the
whole stream. -/
theorem framed_callAll (start : LiveBgpParser β) (hreceiver : start.byteStreamReceiver = some [])
    (hbuffer : start.bytesBuffer = []) (calls : List (Call β))
    (hlast : (callAll value fromSlice start (calls ++ [.processBuffer])).2.getLast? =
      some (some (.ok ()))) :
    Framed value fromSlice start (callAll value fromSlice start (calls ++ [.processBuffer])).1
      (delivered calls) (callAll value fromSlice start (calls ++ [.processBuffer])).2 := by
  obtain ⟨handed, chunks, h⟩ :=
    @accounted_callAll _ value fromSlice _ hreceiver hbuffer calls
  have hcalls : callAll value fromSlice start (calls ++ [.processBuffer]) =
      ((call value fromSlice (callAll value fromSlice start calls).1 .processBuffer).1,
        (callAll value fromSlice start calls).2 ++
          [(call value fromSlice (callAll value fromSlice start calls).1 .processBuffer).2]) :=
    (loop_append start calls [.processBuffer]).trans rfl
  rw [hcalls] at hlast ⊢
  rw [List.getLast?_concat, Option.some.injEq] at hlast
  have hspec := @processBuffer_spec _ value fromSlice _ _ h.receiver
  have hnext := h.processBuffer
  have hok : (LiveBgpParser.processBuffer value fromSlice
      (callAll value fromSlice start calls).1).1 = .ok () := Option.some.inj hlast
  have hemptied := hspec.emptied (by rw [hok]; rfl)
  have hbytes := hnext.bytes
  rw [List.flatten_nil, List.append_nil] at hbytes
  have hstream : lines (isNewline value) (delivered calls) = _ :=
    (congrArg (lines (isNewline value)) hbytes.symm).trans
      (lines_of_complete hnext.complete hemptied)
  refine ⟨?_, ?_, ?_, ?_, ?_⟩
  · rw [hstream]
    exact hnext.advertisements
  · rw [hstream]
  · rw [← hbytes]
    exact hnext.received
  · have hmessages := hnext.messages
    have hads := congrArg List.length hnext.advertisements
    rw [List.length_append] at hads
    show (call value fromSlice (callAll value fromSlice start calls).1 .processBuffer
      ).1.statistics.messagesProcessed + _ = _ + (call value fromSlice
        (callAll value fromSlice start calls).1 .processBuffer).1.advertisements.length
    omega
  · rw [hstream]
    exact hnext.failures

/-- The line of a message comes in two chunks, and a line that is none in the second and a third
one, with a call after each. -/
def lineCalls : List (Call UInt8) :=
  [.deliver (sampleLine.take 20), .processBuffer, .deliver (sampleLine.drop 20 ++ [0x78]),
    .processBuffer, .deliver [0x0a], .processBuffer]

set_option maxRecDepth 10000 in
/-- The first line becomes an advertisement, and the second one fails. -/
theorem framed_callAll_lines :
    let start : LiveBgpParser UInt8 := { new with byteStreamReceiver := some [] }
    let final := callAll id sampleFromSlice start (lineCalls ++ [.processBuffer])
    final.1.advertisements = [ofRisLiveData sampleData] ∧
      final.2 = [none, some (.ok ()), none, some (.ok ()), none,
        some (.error (.ParseError "expected value at line 1 column 1")), some (.ok ())] ∧
      Framed id sampleFromSlice start final.1 (delivered lineCalls) final.2 :=
  ⟨rfl, rfl, framed_callAll { (new : LiveBgpParser UInt8) with byteStreamReceiver := some [] } rfl
    rfl lineCalls rfl⟩

end Calls

end NetfabricBgp.LineDeliveries
