import NetfabricBgp.ProcessThreads
import NetfabricBgp.QuietNetworks

/-!
The steps of a thread, taken without interruption, are a cycle of its process. So whatever
routers do in turns, one at a time, threads can do as well, and what holds of all interleavings
of the threads holds of the turns.
-/
namespace NetfabricBgp.ThreadCycles

open RouterMasks Ribs RibInterfaces Advertisements Channels Interfaces Sessions Processes Supplies
  LinkThreads Routers Networks QuietNetworks ProcessThreads

variable {forms : TextForms}

/-- A step between whose effects and the next step nothing happens. -/
def alone (forms : TextForms) (state : Shared × Thread) (instant : Instant) :
    Except Panic (Shared × Thread) :=
  (state.2.step forms instant state.1).map Prod.fst

/-- Some uninterrupted steps have this result. -/
def Leads (forms : TextForms) (state : Shared × Thread) (result : Except Panic (Shared × Thread)) :
    Prop :=
  ∃ instants, Runs.run (alone forms) state instants = result

section Leading
variable {state next : Shared × Thread} {result : Except Panic (Shared × Thread)}

theorem Leads.refl (state : Shared × Thread) : Leads forms state (.ok state) := ⟨[], rfl⟩

theorem Leads.trans (h : Leads forms state (.ok next)) (h' : Leads forms next result) :
    Leads forms state result := by
  obtain ⟨instants, hrun⟩ := h
  obtain ⟨instants', hrun'⟩ := h'
  exact ⟨instants ++ instants', (Runs.run_append_of_ok hrun instants').trans hrun'⟩

theorem Leads.step (instant : Instant) (h : alone forms state instant = .ok next)
    (h' : Leads forms next result) : Leads forms state result := by
  refine Leads.trans ⟨[instant], ?_⟩ h'
  simp only [Runs.run_cons, Runs.run_nil, h]

end Leading

/-- The outcome of a lock attempt, where the clock is not read. -/
def Instant.ofLock (lock : LockAttempt) : Instant := ⟨lock, 0⟩

section Receiving
variable {shared : Shared} {self : Thread} {n : ℕ} {interface : Interface} {id : ChannelId}

/-- What a session's `receive` makes of what its interface did. -/
def returned (self : Thread) (n : ℕ) (interface : Interface)
    (result : Except InterfaceError Unit) : Thread :=
  match result with
  | .ok () => self.collect n interface
  | .error _ => (self.setInterface n interface).atStage (.receive (n + 1))

theorem returned_setInterface (interface interface' : Interface)
    (result : Except InterfaceError Unit) :
    returned ((self.setInterface n interface).atStage (.receiving n)) n interface' result =
      returned self n interface' result := by
  have hset : (((self.setInterface n interface).atStage (.receiving n)).setInterface n
      interface').process = (self.setInterface n interface').process :=
    congrArg (·.process) (setInterface_setInterface interface interface')
  cases result with
  | ok _ =>
    have hcollect := congrArg (·.process) (@setInterface_setInterface self n interface
      interface'.getIncomingAdvertisements.1)
    simp only [returned, Thread.collect]
    rw [Thread.mk.injEq, HostedProcess.mk.injEq]
    exact ⟨⟨hcollect, rfl⟩, rfl, rfl⟩
  | error e =>
    simp only [returned, Thread.atStage]
    rw [Thread.mk.injEq, HostedProcess.mk.injEq]
    exact ⟨⟨hset, rfl⟩, rfl, rfl⟩

/-- The loop of `receive` returns an error just if it ends with a foreign message. -/
theorem result_of_last {interface' : Interface} {links : Links} {message : Message}
    {rest : List Message} (hin : interface.inChannel = some id)
    (hqueue : (links id).queue.items = message :: rest)
    (htake : Endpoint.take interface message = ⟨interface', .idle⟩) :
    (interface.receive .acquired links).2.2 =
      match message.cast with
      | none => .error notAnAdvertisement
      | some _ => .ok () := by
  unfold Endpoint.take at htake
  cases hcast : message.cast with
  | none => simp [Interface.receive, hin, hqueue, receiveLoop, hcast]
  | some ad =>
    simp only [hcast] at htake
    by_cases hkeep : (interface.inFilter ad).1 = true
    · by_cases hroom : interface.incomingAdvertisements.items.length <
        interface.incomingAdvertisements.capacity
      · simp [hkeep, hroom] at htake
      · simp [Interface.receive, hin, hqueue, receiveLoop, hcast, hkeep, hroom]
    · simp [hkeep] at htake

/-- The rounds of the loop of `receive` are the loop. -/
theorem leads_receiving (hstage : self.stage = .receiving n)
    (hat : self.interfaceAt n = some interface) (hin : interface.inChannel = some id) :
    Leads forms (shared, self)
      (.ok ({ shared with links := (interface.receive .acquired shared.links).1 },
        returned self n (interface.receive .acquired shared.links).2.1
          (interface.receive .acquired shared.links).2.2)) := by
  induction hlen : (shared.links id).queue.items.length generalizing shared self interface with
  | zero =>
    have hqueue := List.eq_nil_of_length_eq_zero hlen
    have hreceive : interface.receive .acquired shared.links =
        (shared.links, interface, .ok ()) := by
      obtain ⟨result, hreceive⟩ := @Interface.receive_of_empty interface shared.links .acquired
        (fun id' hin' => Option.some.inj (hin.symm.trans hin') ▸ hqueue)
      have hresult : (interface.receive .acquired shared.links).2.2 = .ok () := by
        simp [Interface.receive, hin, hqueue, receiveLoop]
      rw [hreceive] at hresult
      rw [hreceive, show result = .ok () from hresult]
    rw [hreceive]
    refine Leads.step (Instant.ofLock .acquired) ?_ (Leads.refl _)
    simp [alone, Thread.step, hstage, hat, Thread.receiveRound, hin, hqueue, returned, Except.map]
  | succ k ih =>
    obtain ⟨message, rest, hqueue⟩ := List.exists_cons_of_length_eq_add_one hlen
    rcases htake : Endpoint.take interface message with ⟨interface', activity⟩
    cases activity with
    | idle =>
      obtain ⟨hlinks, hinterface⟩ := receive_of_last hin hqueue htake
      rw [hlinks, hinterface, result_of_last hin hqueue htake]
      refine Leads.step (Instant.ofLock .acquired) ?_ (Leads.refl _)
      cases hcast : message.cast <;>
        simp [alone, Thread.step, hstage, hat, Thread.receiveRound, hin, hqueue, htake, hcast,
          returned, Except.map]
    | receiving =>
      obtain ⟨hin', hreceive⟩ := receive_of_take hin hqueue htake
      let links := Function.update shared.links id (Endpoint.pop (shared.links id))
      let next := (self.setInterface n interface').atStage (.receiving n)
      have hstep : alone forms (shared, self) (Instant.ofLock .acquired) =
          .ok ({ shared with links := links }, next) := by
        simp [alone, Thread.step, hstage, hat, Thread.receiveRound, hin, hqueue, htake,
          Except.map, links, next]
      have hshort : (links id).queue.items.length = k := by
        show (Function.update shared.links id _ id).queue.items.length = k
        rw [Function.update_self]
        simp only [Endpoint.pop, BoundedQueues.Bounded.keepSuffix, List.length_tail]
        omega
      have hat' : next.interfaceAt n = some interface' := by
        have hlt := lt_length_of_interfaceAt hat
        exact (interfaceAt_setInterface n interface').trans (if_pos ⟨rfl, hlt⟩)
      have hrest := @ih { shared with links := links } next interface' rfl hat' hin' hshort
      rw [returned_setInterface] at hrest
      rw [hreceive]
      exact Leads.step _ hstep hrest
    | sending left => exact absurd htake (take_ne_sending left)

end Receiving

section Places
variable {sessions before rest : List BgpSession} {session : BgpSession}

theorem lt_length (h : sessions = before ++ session :: rest) : before.length < sessions.length := by
  rw [h, List.length_append, List.length_cons]
  omega

theorem sessionAt_length (h : sessions = before ++ session :: rest) :
    sessions[before.length]? = some session := by
  rw [h, List.getElem?_append_right (Nat.le_refl _), Nat.sub_self]
  rfl

theorem modifySession_length (h : sessions = before ++ session :: rest)
    (f : BgpSession → BgpSession) :
    sessions.modify before.length f = before ++ f session :: rest := by
  rw [List.modify_eq_take_cons_drop (lt_length h)]
  subst h
  simp

end Places

section Sessions
variable {shared : Shared} {self : Thread} {before rest : List BgpSession} {session : BgpSession}

/-- A thread whose process has other sessions. -/
def withSessions (self : Thread) (sessions : List BgpSession) : Thread :=
  { self with process := { self.process with sessions := sessions } }

theorem interfaceAt_length (h : self.process.sessions = before ++ session :: rest) :
    self.interfaceAt before.length = session.interface := by
  unfold Thread.interfaceAt
  rw [sessionAt_length h]
  rfl

theorem setInterface_length (h : self.process.sessions = before ++ session :: rest)
    (interface : Interface) :
    self.setInterface before.length interface =
      withSessions self (before ++ session.withInterface interface :: rest) := by
  unfold Thread.setInterface withSessions
  rw [modifySession_length h]

/-- What a session's `receive` adds to the advertisements of its process. -/
def delivered {ε : Type} : Except ε (List Advertisement) → List Advertisement
  | .ok ads => ads
  | .error _ => []

/-- The thread after a session's `receive`. -/
def afterReceive (self : Thread) (before rest : List BgpSession)
    (received : BgpSession × Except BgpSessionError (List Advertisement)) : Thread :=
  { withSessions self (before ++ received.1 :: rest) with
    stage := .receive (before.length + 1)
    received := self.received ++ delivered received.2 }

/-- A session that gives nothing back and stays as it is. -/
theorem afterReceive_error (h : self.process.sessions = before ++ session :: rest)
    (e : BgpSessionError) :
    afterReceive self before rest (session, .error e) =
      self.atStage (.receive (before.length + 1)) := by
  unfold afterReceive withSessions Thread.atStage delivered
  rw [List.append_nil, ← h]

theorem afterReceive_collect (h : self.process.sessions = before ++ session :: rest)
    (interface : Interface) :
    afterReceive self before rest (session.withInterface interface.getIncomingAdvertisements.1,
        .ok interface.getIncomingAdvertisements.2) = self.collect before.length interface := by
  have hset := setInterface_length h interface.getIncomingAdvertisements.1
  have hcollect : self.collect before.length interface =
      { self.setInterface before.length interface.getIncomingAdvertisements.1 with
        stage := .receive (before.length + 1)
        received := self.received ++ interface.getIncomingAdvertisements.2 } := rfl
  rw [hcollect, hset]
  rfl

theorem leads_receive (h : self.process.sessions = before ++ session :: rest)
    (hstage : self.stage = .receive before.length) (lock : LockAttempt) :
    Leads forms (shared, self)
      (.ok ({ shared with links := (session.receive lock shared.links).1 },
        afterReceive self before rest (session.receive lock shared.links).2)) := by
  have hlt := lt_length h
  have hat := interfaceAt_length h
  cases hinterface : session.interface with
  | none =>
    rw [hinterface] at hat
    have hreceive : session.receive lock shared.links =
        (shared.links, session, .error .InterfaceNotSet) := by
      rw [BgpSession.receive, hinterface]
    rw [hreceive, afterReceive_error h]
    refine Leads.step (Instant.ofLock lock) ?_ (Leads.refl _)
    simp [alone, Thread.step, hstage, Thread.beginReceive, hlt, hat, Except.map]
  | some interface =>
    rw [hinterface] at hat
    have hsame : session.withInterface interface = session := by
      rw [BgpSession.withInterface, ← hinterface]
    cases hin : interface.inChannel with
    | none =>
      have hreceive : session.receive lock shared.links = (shared.links,
          session.withInterface interface.getIncomingAdvertisements.1,
          .ok interface.getIncomingAdvertisements.2) := by
        simp [BgpSession.receive, hinterface, Interface.receive, hin, BgpSession.withInterface]
      rw [hreceive, afterReceive_collect h]
      refine Leads.step (Instant.ofLock lock) ?_ (Leads.refl _)
      simp [alone, Thread.step, hstage, Thread.beginReceive, hlt, hat, hin, Except.map]
    | some id =>
      cases lock with
      | timedOut =>
        have hreceive : session.receive .timedOut shared.links =
            (shared.links, session, .error (.InterfaceError lockTimedOut)) := by
          simp only [BgpSession.receive, hinterface, Interface.receive, hin]
          rw [← hinterface]
        rw [hreceive, afterReceive_error h]
        refine Leads.step (Instant.ofLock .timedOut) ?_ (Leads.refl _)
        simp [alone, Thread.step, hstage, Thread.beginReceive, hlt, hat, hin, Except.map,
          Instant.ofLock]
      | acquired =>
        have hbegin : alone forms (shared, self) (Instant.ofLock .acquired) =
            .ok (shared, self.atStage (.receiving before.length)) := by
          simp [alone, Thread.step, hstage, Thread.beginReceive, hlt, hat, hin, Except.map,
            Instant.ofLock]
        refine Leads.step _ hbegin ?_
        have hloop := @leads_receiving forms shared
          (self.atStage (.receiving before.length)) before.length interface id rfl hat hin
        rcases hreceive : interface.receive .acquired shared.links with ⟨links, interface', result⟩
        rw [hreceive] at hloop
        simp only [BgpSession.receive, hinterface, hreceive]
        cases result with
        | ok _ =>
          have hcollect := afterReceive_collect h interface'
          simp only [BgpSession.withInterface] at hcollect
          simp only [hcollect]
          exact hloop
        | error e =>
          have herror : returned (self.atStage (.receiving before.length)) before.length interface'
              (.error e) = afterReceive self before rest
                (session.withInterface interface', .error (.InterfaceError e)) := by
            simp only [returned]
            rw [@setInterface_length (self.atStage (.receiving before.length)) before rest session
              h]
            simp [afterReceive, withSessions, Thread.atStage, delivered]
          rw [herror] at hloop
          exact hloop

/-- The `receive` calls of all sessions, from one of them on. -/
theorem leads_receiveSessions (locks : ℕ → LockAttempt) (h : self.process.sessions = before ++ rest)
    (hstage : self.stage = .receive before.length) :
    Leads forms (shared, self)
      (.ok ({ shared with links := (receiveSessions locks shared.links before.length rest).1 },
        { withSessions self (before ++
            (receiveSessions locks shared.links before.length rest).2.1) with
          stage := .update (self.received ++
            (receiveSessions locks shared.links before.length rest).2.2)
          received := [] })) := by
  induction rest generalizing before shared self with
  | nil =>
    refine Leads.step (Instant.ofLock .acquired) ?_ (Leads.refl _)
    rw [List.append_nil] at h
    subst h
    simp [alone, Thread.step, hstage, Thread.beginReceive, receiveSessions, Except.map,
      withSessions]
  | cons session rest ih =>
    refine Leads.trans (leads_receive h hstage (locks before.length)) ?_
    rcases hreceive : session.receive (locks before.length) shared.links with
      ⟨links, session', result⟩
    have hsessions : (afterReceive self before rest (session', result)).process.sessions =
        (before ++ [session']) ++ rest := by
      rw [List.append_assoc]
      rfl
    have hlen : (before ++ [session']).length = before.length + 1 := by
      rw [List.length_append, List.length_singleton]
    have hrest := @ih { shared with links := links }
      (afterReceive self before rest (session', result)) (before ++ [session']) hsessions
      (by rw [hlen]; rfl)
    rw [hlen] at hrest
    simp only [receiveSessions, hreceive]
    cases result <;>
      simpa [afterReceive, withSessions, delivered] using hrest

end Sessions

section Updating
variable {shared : Shared} {self : Thread}

/-- The thread and the RIB after the updates of a cycle. -/
def updated (self : Thread) (shared : Shared) (result : BgpRib × BgpRibInterface) :
    Shared × Thread :=
  ({ shared with ribs := Function.update shared.ribs self.rib result.1 },
    { self with
      process := { self.process with ribInterface := result.2 }
      stage := .publish })

/-- The updates of a cycle, each with an attempt to lock the RIB. -/
theorem leads_updates (attempts : List (LockAttempt × Advertisement))
    (hstage : self.stage = .update (attempts.map Prod.snd)) :
    Leads forms (shared, self)
      ((self.process.ribInterface.update forms (shared.ribs self.rib) attempts).map
        (updated self shared)) := by
  induction attempts generalizing shared self with
  | nil =>
    refine Leads.step (Instant.ofLock .acquired) ?_ (Leads.refl _)
    simp only [List.map_nil] at hstage
    simp [alone, Thread.step, hstage, updated, Except.map, Function.update_eq_self,
      Thread.atStage]
  | cons attempt rest ih =>
    obtain ⟨lock, ad⟩ := attempt
    simp only [List.map_cons] at hstage
    cases lock with
    | timedOut =>
      refine Leads.step (Instant.ofLock .timedOut) ?_
        (@ih shared (self.atStage (.update (rest.map Prod.snd))) rfl)
      simp [alone, Thread.step, hstage, Instant.ofLock, Except.map]
    | acquired =>
      have hstep : self.step forms (Instant.ofLock .acquired) shared =
          self.applyUpdate forms shared ad (rest.map Prod.snd) := by
        simp [Thread.step, hstage, Instant.ofLock]
      rw [BgpRibInterface.update]
      rcases hlocked : self.process.ribInterface.updateLocked forms (shared.ribs self.rib) ad with
        panic | ⟨rib, ribInterface⟩
      · refine ⟨[Instant.ofLock .acquired], ?_⟩
        simp [Runs.run_cons, alone, hstep, Thread.applyUpdate, hlocked, Except.map]
      · let next : Thread := { self with
          process := { self.process with ribInterface := ribInterface }
          stage := .update (rest.map Prod.snd) }
        have hrest := @ih { shared with ribs := Function.update shared.ribs self.rib rib } next rfl
        have hnext : alone forms (shared, self) (Instant.ofLock .acquired) =
            .ok ({ shared with ribs := Function.update shared.ribs self.rib rib }, next) := by
          simp [alone, hstep, Thread.applyUpdate, hlocked, Except.map, next]
        have hfinal : updated next
            { shared with ribs := Function.update shared.ribs self.rib rib } =
              updated self shared := by
          funext result
          simp [updated, next]
        rw [hfinal] at hrest
        refine Leads.step _ hnext ?_
        simpa [next] using hrest

end Updating

section Sending
variable {shared : Shared} {self : Thread} {n : ℕ} {interface : Interface} {id : ChannelId}
  {before rest : List BgpSession} {session : BgpSession}

/-- The rounds of the loop of `send` are the loop. -/
theorem leads_sending (ads : List Advertisement) (hstage : self.stage = .sending n ads)
    (hat : self.interfaceAt n = some interface) (hout : interface.outChannel = some id) :
    Leads forms (shared, self)
      (.ok ({ shared with
          links := Function.update shared.links id
            (sendLoop interface.outFilter (shared.links id) ads) },
        self.atStage (.send (n + 1)))) := by
  induction ads generalizing shared self with
  | nil =>
    refine Leads.step (Instant.ofLock .acquired) ?_ (Leads.refl _)
    simp [alone, Thread.step, hstage, sendLoop, Except.map, Function.update_eq_self]
  | cons ad ads ih =>
    by_cases hkeep : (interface.outFilter ad).1 = true
    · cases hsend : (shared.links id).trySend (.advertisement (interface.outFilter ad).2) with
      | ok channel =>
        have hrest := @ih { shared with links := Function.update shared.links id channel }
          (self.atStage (.sending n ads)) rfl hat
        have hnext : alone forms (shared, self) (Instant.ofLock .acquired) =
            .ok ({ shared with links := Function.update shared.links id channel },
              self.atStage (.sending n ads)) := by
          simp [alone, Thread.step, hstage, hat, Thread.sendRound, hkeep, hout, hsend, Except.map]
        refine Leads.step _ hnext ?_
        simpa [sendLoop, hkeep, hsend, Thread.atStage] using hrest
      | error e =>
        refine Leads.step (Instant.ofLock .acquired) ?_ (Leads.refl _)
        simp [alone, Thread.step, hstage, hat, Thread.sendRound, hkeep, hout, hsend, Except.map,
          sendLoop]
    · have hnext : alone forms (shared, self) (Instant.ofLock .acquired) =
          .ok (shared, self.atStage (.sending n ads)) := by
        simp [alone, Thread.step, hstage, hat, Thread.sendRound, hkeep, Except.map]
      have hrest := @ih shared (self.atStage (.sending n ads)) rfl hat
      refine Leads.step _ hnext ?_
      simpa [sendLoop, hkeep, Thread.atStage] using hrest

/-- The thread after a session's `send`. -/
def afterSend (self : Thread) (before rest : List BgpSession) (session : BgpSession) : Thread :=
  (withSessions self (before ++ session :: rest)).atStage (.send (before.length + 1))

theorem leads_send (h : self.process.sessions = before ++ session :: rest)
    (hstage : self.stage = .send before.length) :
    Leads forms (shared, self)
      (.ok ({ shared with links := (session.send self.process.advertisement shared.links).1 },
        afterSend self before rest
          (session.send self.process.advertisement shared.links).2.1)) := by
  have hlt := lt_length h
  have hat := interfaceAt_length h
  cases hinterface : session.interface with
  | none =>
    rw [hinterface] at hat
    have hsend : session.send self.process.advertisement shared.links =
        (shared.links, session, .error .InterfaceNotSet) := by
      rw [BgpSession.send, hinterface]
    have hsame : afterSend self before rest session = self.atStage (.send (before.length + 1)) := by
      unfold afterSend withSessions
      rw [← h]
    rw [hsend, hsame]
    refine Leads.step (Instant.ofLock .acquired) ?_ (Leads.refl _)
    simp [alone, Thread.step, hstage, Thread.beginSend, hlt, hat, Except.map]
  | some interface =>
    rw [hinterface] at hat
    obtain ⟨result, hsend⟩ := BgpSession.send_of_interface hinterface self.process.advertisement
      shared.links
    rw [hsend]
    let pushed := (interface.pushOutgoingAdvertisements self.process.advertisement).1
    have hafter : ∀ interface',
        afterSend self before rest { session with interface := some interface' } =
          (self.setInterface before.length interface').atStage (.send (before.length + 1)) := by
      intro interface'
      rw [setInterface_length h]
      rfl
    show Leads forms (shared, self) (.ok ({ shared with links := (pushed.send shared.links).1 },
      afterSend self before rest { session with interface := some (pushed.send shared.links).2 }))
    rw [hafter]
    have hbegin : self.step forms (Instant.ofLock .acquired) shared =
        .ok ((shared, self.beginSend before.length), none) := by
      simp [Thread.step, hstage]
    by_cases hnil : pushed.outgoingAdvertisements.items = []
    · refine Leads.step (Instant.ofLock .acquired) ?_ (Leads.refl _)
      simp [alone, hbegin, Thread.beginSend, hlt, hat, Except.map, Endpoint.begin, Interface.send,
        pushed, hnil]
    · cases hout : pushed.outChannel with
      | none =>
        refine Leads.step (Instant.ofLock .acquired) ?_ (Leads.refl _)
        simp [alone, hbegin, Thread.beginSend, hlt, hat, Except.map, Endpoint.begin,
          Interface.send, pushed, hnil, hout]
      | some id =>
        let emptied : Interface :=
          { pushed with outgoingAdvertisements := .empty pushed.bufferSizeOutgoing }
        let next := (self.setInterface before.length emptied).atStage
          (.sending before.length pushed.outgoingAdvertisements.items)
        have hnext : alone forms (shared, self) (Instant.ofLock .acquired) =
            .ok (shared, next) := by
          simp [alone, hbegin, Thread.beginSend, hlt, hat, Except.map, Endpoint.begin,
            pushed, hnil, hout, next, emptied]
        have hat' : next.interfaceAt before.length = some emptied :=
          (interfaceAt_setInterface before.length emptied).trans (if_pos ⟨rfl, hlt⟩)
        refine Leads.step _ hnext ?_
        have hloop := @leads_sending forms shared next before.length emptied id _ rfl hat' hout
        simpa [Interface.send, hnil, hout, emptied, next, Thread.atStage] using hloop

/-- The thread after the `send` calls of all sessions. -/
def afterSends (self : Thread) (sessions : List BgpSession) : Thread :=
  { self with
    process := { self.process with sessions := sessions, advertisement := [] }
    stage := .receive 0 }

/-- The `send` calls of all sessions, from one of them on. -/
theorem leads_sendSessions (h : self.process.sessions = before ++ rest)
    (hstage : self.stage = .send before.length) :
    Leads forms (shared, self)
      (.ok ({ shared with
          links := (sendSessions self.process.advertisement shared.links rest).1 },
        afterSends self
          (before ++ (sendSessions self.process.advertisement shared.links rest).2))) := by
  induction rest generalizing before shared self with
  | nil =>
    refine Leads.step (Instant.ofLock .acquired) ?_ (Leads.refl _)
    rw [List.append_nil] at h
    subst h
    simp [alone, Thread.step, hstage, Thread.beginSend, sendSessions, Except.map, afterSends]
  | cons session rest ih =>
    refine Leads.trans (leads_send h hstage) ?_
    rcases hsend : session.send self.process.advertisement shared.links with
      ⟨links, session', result⟩
    have hsessions : (afterSend self before rest session').process.sessions =
        (before ++ [session']) ++ rest := by
      rw [List.append_assoc]
      rfl
    have hlen : (before ++ [session']).length = before.length + 1 := by
      rw [List.length_append, List.length_singleton]
    have hrest := @ih { shared with links := links } (afterSend self before rest session')
      (before ++ [session']) hsessions (by rw [hlen]; rfl)
    simp only [sendSessions, hsend]
    simpa [afterSend, afterSends, withSessions, Thread.atStage] using hrest

end Sending

section Cycles

/-- Shared state and thread between two cycles. -/
def between (reached : Links × (RibId → BgpRib) × HostedProcess) : Shared × Thread :=
  (⟨reached.1, reached.2.1⟩, Thread.start reached.2.2)

/-- Some steps of a thread, uninterrupted, are a cycle, a panic in it included. -/
theorem leads_cycle (hosted : HostedProcess) (moment : Moment) (links : Links)
    (ribs : RibId → BgpRib) :
    Leads forms (between (links, ribs, hosted))
      ((hosted.cycle forms moment links ribs).map between) := by
  rcases hreceive : receiveSessions moment.locks links 0 hosted.process.sessions with
    ⟨links', sessions, ads⟩
  have hreceived := @leads_receiveSessions forms ⟨links, ribs⟩ (Thread.start hosted) []
    hosted.process.sessions moment.locks rfl rfl
  rw [List.length_nil, hreceive] at hreceived
  let self : Thread := { withSessions (Thread.start hosted) sessions with
    stage := .update ads
    received := [] }
  have hready : Leads forms (between (links, ribs, hosted)) (.ok (⟨links', ribs⟩, self)) :=
    hreceived
  refine Leads.trans hready ?_
  let attempts := ads.zipIdx.map (fun entry => (moment.ribLocks entry.2, entry.1))
  have hstage : self.stage = .update (attempts.map Prod.snd) := by
    have hads : attempts.map Prod.snd = ads := by
      simp [attempts, Function.comp_def]
    rw [hads]
  have hupdates := @leads_updates forms ⟨links', ribs⟩ self attempts hstage
  rcases hupdate : hosted.process.ribInterface.update forms (ribs hosted.rib) attempts with
    panic | ⟨rib, ribInterface⟩
  · have hpanic : self.process.ribInterface.update forms (ribs self.rib) attempts =
        .error panic := hupdate
    rw [hpanic] at hupdates
    have hcycle : hosted.cycle forms moment links ribs = .error panic := by
      simp [HostedProcess.cycle, BgpProcess.receive, hreceive, hupdate, attempts]
    rw [hcycle]
    exact hupdates
  · have hok : self.process.ribInterface.update forms (ribs self.rib) attempts =
        .ok (rib, ribInterface) := hupdate
    rw [hok] at hupdates
    refine Leads.trans hupdates ?_
    let shared : Shared := ⟨links', Function.update ribs hosted.rib rib⟩
    let applied := (updated self ⟨links', ribs⟩ (rib, ribInterface)).2
    let published := (applied.publish forms moment.timestamp).1
    have hpublish : alone forms (shared, applied) ⟨.acquired, moment.timestamp⟩ =
        .ok (shared, published) := rfl
    refine Leads.step _ hpublish ?_
    have hsend := @leads_sendSessions forms shared published [] sessions rfl rfl
    have hcycle : (hosted.cycle forms moment links ribs).map between =
        .ok ({ shared with links := (sendSessions published.process.advertisement links'
          sessions).1 }, afterSends published ([] ++ (sendSessions published.process.advertisement
            links' sessions).2)) := by
      simp [HostedProcess.cycle, BgpProcess.receive, hreceive, hupdate, attempts, Except.map,
        BgpProcess.send, between, shared]
      exact ⟨rfl, rfl⟩
    rw [hcycle]
    exact hsend

end Cycles

/-- The process at a position of a router. -/
def hostedAt (network : NetworkManager) (place : Uuid × ℕ) : Option HostedProcess :=
  (network.routers.lookup place.1).bind (·.bgpProcesses[place.2]?)

/-- The processes of a network in threads of their own. -/
def threadsOf (state : NetworkManager × Supply) : Threads (Uuid × ℕ) where
  thread := fun place => (hostedAt state.1 place).map Thread.start
  shared := ⟨state.2.links, state.2.ribs⟩

section Acting
variable {ι : Type*} [DecidableEq ι] {state : Threads ι} {i : ι} {self : Thread}

/-- The steps that a thread takes alone, as events of the network. -/
theorem run_acts (h : state.thread i = some self) (instants : List Instant) :
    Runs.run (advance forms) state (instants.map (.act i)) =
      (Runs.run (alone forms) (state.shared, self) instants).map
        (fun reached => ⟨Function.update state.thread i (some reached.2), reached.1⟩) := by
  induction instants generalizing state self with
  | nil =>
    simp only [List.map_nil, Runs.run_nil, Except.map]
    rw [← h, Function.update_eq_self]
  | cons instant rest ih =>
    rw [List.map_cons, Runs.run_cons, Runs.run_cons]
    rcases hstep : self.step forms instant state.shared with panic | ⟨⟨shared, next⟩, effect⟩
    · simp [advance, step, h, alone, hstep, Except.map]
    · have hadvance : advance forms state (.act i instant) =
          .ok ⟨Function.update state.thread i (some next), shared⟩ := by
        simp [advance, step, h, hstep, Except.map]
      have halone : alone forms (state.shared, self) instant = .ok (shared, next) := by
        simp [alone, hstep, Except.map]
      simp only [hadvance, halone]
      rw [@ih ⟨Function.update state.thread i (some next), shared⟩ next (by simp)]
      simp

end Acting

section Turns
variable {id : Uuid}

/-- The network after cycles of the processes of a router, from one of them on. -/
def placed (state : Threads (Uuid × ℕ)) (id : Uuid) (n : ℕ)
    (reached : Links × (RibId → BgpRib) × List HostedProcess) : Threads (Uuid × ℕ) where
  thread := fun place =>
    if place.1 = id ∧ n ≤ place.2 then reached.2.2[place.2 - n]?.map Thread.start
    else state.thread place
  shared := ⟨reached.1, reached.2.1⟩

/-- Nothing but steps of threads. -/
def OnlyActs {ι : Type*} (events : List (Event ι)) : Prop :=
  ∀ event ∈ events, ∃ i instant, event = .act i instant

theorem onlyActs_append {ι : Type*} {events events' : List (Event ι)} (h : OnlyActs events)
    (h' : OnlyActs events') : OnlyActs (events ++ events') := by
  intro event hevent
  rcases List.mem_append.mp hevent with hevent | hevent
  · exact h event hevent
  · exact h' event hevent

theorem placed_cons (state : Threads (Uuid × ℕ)) (n : ℕ) (links : Links) (ribs : RibId → BgpRib)
    (shared : Shared) (hosted : HostedProcess) (rest : List HostedProcess) :
    placed ⟨Function.update state.thread (id, n) (some (Thread.start hosted)), shared⟩ id (n + 1)
        (links, ribs, rest) =
      placed state id n (links, ribs, hosted :: rest) := by
  simp only [placed, Threads.mk.injEq, and_true]
  funext place
  obtain ⟨other, k⟩ := place
  by_cases hid : other = id
  · subst hid
    rcases Nat.lt_trichotomy k n with hlt | rfl | hgt
    · have hne : ¬ n ≤ k := by omega
      have hne' : ¬ n + 1 ≤ k := by omega
      simp [hne, hne', Function.update, hlt.ne]
    · simp
    · have hle : n ≤ k := by omega
      have hle' : n + 1 ≤ k := by omega
      have hindex : k - n = (k - (n + 1)) + 1 := by omega
      simp [hle, hle', hindex]
  · simp [hid, Function.update]

/-- The cycles of the processes of a router, one after the other. -/
theorem run_workProcesses (moments : ℕ → Moment) (processes : List HostedProcess) (n : ℕ)
    (state : Threads (Uuid × ℕ))
    (h : ∀ k, state.thread (id, n + k) = processes[k]?.map Thread.start) :
    ∃ events, OnlyActs events ∧ Runs.run (advance forms) state events =
      (workProcesses forms moments state.shared.links state.shared.ribs n processes).map
        (placed state id n) := by
  induction processes generalizing n state with
  | nil =>
    refine ⟨[], ?_, ?_⟩
    · intro event hevent
      exact absurd hevent List.not_mem_nil
    · have hplaced : placed state id n (state.shared.links, state.shared.ribs, []) = state := by
        obtain ⟨thread, shared⟩ := state
        simp only [placed, Threads.mk.injEq, and_true]
        funext place
        by_cases hplace : place.1 = id ∧ n ≤ place.2
        · have hnone := h (place.2 - n)
          rw [Nat.add_sub_cancel' hplace.2, ← hplace.1] at hnone
          rw [if_pos hplace]
          exact hnone.symm
        · rw [if_neg hplace]
      simp only [Runs.run_nil, workProcesses, Except.map, hplaced]
  | cons hosted rest ih =>
    obtain ⟨instants, hrun⟩ := @leads_cycle forms hosted (moments n) state.shared.links
      state.shared.ribs
    have hacts : OnlyActs (instants.map (Event.act (id, n))) := by
      intro event hevent
      obtain ⟨instant, -, rfl⟩ := List.mem_map.mp hevent
      exact ⟨_, _, rfl⟩
    have hfirst := @run_acts forms _ _ state (id, n) (Thread.start hosted) (h 0) instants
    have hbetween : between (state.shared.links, state.shared.ribs, hosted) =
        (state.shared, Thread.start hosted) := rfl
    rw [← hbetween, hrun] at hfirst
    unfold workProcesses
    rcases hcycle : hosted.cycle forms (moments n) state.shared.links state.shared.ribs with
      panic | ⟨links, ribs, hosted'⟩
    · rw [hcycle] at hfirst
      exact ⟨_, hacts, hfirst⟩
    · rw [hcycle] at hfirst
      let next : Threads (Uuid × ℕ) :=
        ⟨Function.update state.thread (id, n) (some (Thread.start hosted')), ⟨links, ribs⟩⟩
      have hnext : Runs.run (advance forms) state (instants.map (.act (id, n))) = .ok next := hfirst
      have hrest : ∀ k, next.thread (id, n + 1 + k) = rest[k]?.map Thread.start := by
        intro k
        have hk := h (k + 1)
        rw [← Nat.add_assoc, Nat.add_right_comm, List.getElem?_cons_succ] at hk
        rw [← hk]
        apply Function.update_of_ne
        intro heq
        have hsnd := congrArg Prod.snd heq
        simp only at hsnd
        omega
      obtain ⟨events, hevents, hlater⟩ := ih (n + 1) next hrest
      refine ⟨instants.map (.act (id, n)) ++ events, onlyActs_append hacts hevents, ?_⟩
      rw [Runs.run_append_of_ok hnext, hlater]
      simp only [next]
      rcases hwork : workProcesses forms moments links ribs (n + 1) rest with
        panic | ⟨links', ribs', rest'⟩
      · rfl
      · simp only [Except.map, placed_cons]

/-- A turn of a router. -/
theorem run_workAt (state : NetworkManager × Supply) (turn : Turn) :
    ∃ events, OnlyActs events ∧ Runs.run (advance forms) (threadsOf state) events =
      (workAt forms state turn).map threadsOf := by
  unfold workAt
  cases hlookup : state.1.routers.lookup turn.router with
  | none => exact ⟨[], fun _ hevent => absurd hevent List.not_mem_nil, rfl⟩
  | some router =>
    have hthreads : ∀ k, (threadsOf state).thread (turn.router, 0 + k) =
        router.bgpProcesses[k]?.map Thread.start := by
      intro k
      simp only [threadsOf, hostedAt, hlookup, Nat.zero_add, Option.bind_some]
    obtain ⟨events, hacts, hrun⟩ := @run_workProcesses forms turn.router turn.moments
      router.bgpProcesses 0 (threadsOf state) hthreads
    refine ⟨events, hacts, ?_⟩
    rw [hrun]
    simp only [Router.work, threadsOf]
    rcases hwork : workProcesses forms turn.moments state.2.links state.2.ribs 0
      router.bgpProcesses with panic | ⟨links, ribs, processes⟩
    · rfl
    · simp only [Except.map, placed, threadsOf, hostedAt, Except.ok.injEq, Threads.mk.injEq,
        and_true]
      funext place
      by_cases hid : place.1 = turn.router
      · rw [if_pos ⟨hid, Nat.zero_le _⟩, hid, Finmap.lookup_insert]
        rfl
      · rw [if_neg (fun h => hid h.1), Finmap.lookup_insert_of_ne _ hid]

/-- Whatever routers do in turns, threads can do. -/
theorem turns_run (forms : TextForms) (state : NetworkManager × Supply) (turns : List Turn) :
    ∃ events, OnlyActs events ∧ Runs.run (advance forms) (threadsOf state) events =
      (Runs.run (workAt forms) state turns).map threadsOf := by
  induction turns generalizing state with
  | nil => exact ⟨[], fun _ hevent => absurd hevent List.not_mem_nil, rfl⟩
  | cons turn rest ih =>
    obtain ⟨events, hacts, hrun⟩ := @run_workAt forms state turn
    rw [Runs.run_cons]
    rcases hwork : workAt forms state turn with panic | next
    · rw [hwork] at hrun
      exact ⟨events, hacts, hrun⟩
    · rw [hwork] at hrun
      obtain ⟨events', hacts', hrest⟩ := ih next
      refine ⟨events ++ events', onlyActs_append hacts hacts', ?_⟩
      rw [Runs.run_append_of_ok hrun]
      exact hrest

end Turns

end NetfabricBgp.ThreadCycles
