import NetfabricBgp.ProcessThreads

/-!
Everything that a step of a thread can be. A relation has a case for each, with what the step
found and what it left, and the function that computes steps satisfies it. Of the settings of
a process, its sessions' channels and filters among them, no step changes anything.
-/
namespace NetfabricBgp.ThreadSteps

open Addresses RouterMasks Ribs RibInterfaces Advertisements BoundedQueues Channels Interfaces
  Sessions Processes Supplies LinkThreads Routers ProcessThreads

variable {forms : TextForms}

/-- The shared state after the first message was taken from a channel. -/
def Shared.pop (shared : Shared) (id : ChannelId) : Shared :=
  { shared with links := Function.update shared.links id (Endpoint.pop (shared.links id)) }

/-- The shared state with another content of a channel. -/
def Shared.setLink (shared : Shared) (id : ChannelId) (channel : Channel) : Shared :=
  { shared with links := Function.update shared.links id channel }

def Shared.setRib (shared : Shared) (id : RibId) (rib : BgpRib) : Shared :=
  { shared with ribs := Function.update shared.ribs id rib }

/-- The advertisements of a process in the buffer of an interface. -/
def pushed (self : Thread) (interface : Interface) : Interface :=
  (interface.pushOutgoingAdvertisements self.process.advertisement).1

/-- The sessions are receiving. -/
def Hearing : Stage → Prop
  | .receive _ => True
  | .receiving _ => True
  | _ => False

/-- The interface whose buffer has gone into the loop of `send`. -/
def emptied (interface : Interface) : Interface :=
  { interface with outgoingAdvertisements := .empty interface.bufferSizeOutgoing }

/-- The thread that has handed over what its sessions received. -/
def handedOver (self : Thread) : Thread :=
  { self with
    stage := .update self.received
    received := [] }

/-- The thread at the end of its cycle. -/
def cleared (self : Thread) : Thread :=
  { self with
    process := { self.process with advertisement := [] }
    stage := .receive 0 }

def withRibInterface (self : Thread) (ribInterface : BgpRibInterface) : Thread :=
  { self with process := { self.process with ribInterface := ribInterface } }

/-- A step that ends in this shared state and thread, with this effect. -/
inductive Steps (forms : TextForms) (instant : Instant) (shared : Shared) (self : Thread) :
    Shared → Thread → Option Effect → Prop
  | receiveUnset (n : ℕ) (hstage : self.stage = .receive n ∨ self.stage = .receiving n)
      (hat : self.interfaceAt n = none) (hlt : n < self.process.sessions.length ∨
        self.stage = .receiving n) :
      Steps forms instant shared self shared (self.atStage (.receive (n + 1))) none
  | receiveTimedOut (n : ℕ) (interface : Interface) (hstage : self.stage = .receive n)
      (hat : self.interfaceAt n = some interface) (hin : interface.inChannel ≠ none)
      (hlock : instant.lock = .timedOut) :
      Steps forms instant shared self shared (self.atStage (.receive (n + 1))) none
  | receiveBegin (n : ℕ) (interface : Interface) (hstage : self.stage = .receive n)
      (hat : self.interfaceAt n = some interface) (hin : interface.inChannel ≠ none)
      (hlock : instant.lock = .acquired) :
      Steps forms instant shared self shared (self.atStage (.receiving n)) none
  | receiveDone (n : ℕ) (hstage : self.stage = .receive n)
      (hlen : self.process.sessions.length ≤ n) :
      Steps forms instant shared self shared (handedOver self) none
  | collect (n : ℕ) (interface : Interface)
      (hstage : self.stage = .receive n ∨ self.stage = .receiving n)
      (hat : self.interfaceAt n = some interface)
      (hnothing : ∀ id, interface.inChannel = some id → self.stage = .receiving n ∧
        (shared.links id).queue.items = []) :
      Steps forms instant shared self shared (self.collect n interface) none
  | take (n : ℕ) (interface interface' : Interface) (id : ChannelId) (message : Message)
      (rest : List Message) (hstage : self.stage = .receiving n)
      (hat : self.interfaceAt n = some interface) (hin : interface.inChannel = some id)
      (hqueue : (shared.links id).queue.items = message :: rest)
      (htake : Endpoint.take interface message = ⟨interface', .receiving⟩) :
      Steps forms instant shared self (Shared.pop shared id)
        ((self.setInterface n interface').atStage (.receiving n)) (some (.take id message))
  | discardForeign (n : ℕ) (interface : Interface) (id : ChannelId) (message : Message)
      (rest : List Message) (hstage : self.stage = .receiving n)
      (hat : self.interfaceAt n = some interface) (hin : interface.inChannel = some id)
      (hqueue : (shared.links id).queue.items = message :: rest) (hcast : message.cast = none) :
      Steps forms instant shared self (Shared.pop shared id)
        ((self.setInterface n interface).atStage (.receive (n + 1))) (some (.discard id message))
  | discardFull (n : ℕ) (interface : Interface) (id : ChannelId) (ad : Advertisement)
      (rest : List Message) (hstage : self.stage = .receiving n)
      (hat : self.interfaceAt n = some interface) (hin : interface.inChannel = some id)
      (hqueue : (shared.links id).queue.items = .advertisement ad :: rest)
      (hkeep : (interface.inFilter ad).1 = true)
      (hfull : interface.incomingAdvertisements.room = 0) :
      Steps forms instant shared self (Shared.pop shared id) (self.collect n interface)
        (some (.discard id (.advertisement ad)))
  | updateDone (hstage : self.stage = .update []) :
      Steps forms instant shared self shared (self.atStage .publish) none
  | skip (ad : Advertisement) (rest : List Advertisement)
      (hstage : self.stage = .update (ad :: rest)) (hlock : instant.lock = .timedOut) :
      Steps forms instant shared self shared (self.atStage (.update rest)) (some (.skip ad))
  | apply (ad : Advertisement) (rest : List Advertisement) (rib : BgpRib)
      (ribInterface : BgpRibInterface) (hstage : self.stage = .update (ad :: rest))
      (hlock : instant.lock = .acquired)
      (hupdate : self.process.ribInterface.updateLocked forms (shared.ribs self.rib) ad =
        .ok (rib, ribInterface)) :
      Steps forms instant shared self (Shared.setRib shared self.rib rib)
        ((withRibInterface self ribInterface).atStage (.update rest))
        (some (.apply self.rib self.process.ribInterface.clientId ad))
  | publish (hstage : self.stage = .publish) :
      Steps forms instant shared self shared (self.publish forms instant.timestamp).1
        (some (self.publish forms instant.timestamp).2)
  | sendUnset (n : ℕ) (hstage : self.stage = .send n) (hat : self.interfaceAt n = none)
      (hlt : n < self.process.sessions.length) :
      Steps forms instant shared self shared (self.atStage (.send (n + 1))) none
  | sendNothing (n : ℕ) (interface : Interface) (hstage : self.stage = .send n)
      (hat : self.interfaceAt n = some interface)
      (hnothing : (pushed self interface).outgoingAdvertisements.items = [] ∨
        interface.outChannel = none) :
      Steps forms instant shared self shared
        ((self.setInterface n (pushed self interface)).atStage (.send (n + 1))) none
  | sendBegin (n : ℕ) (interface : Interface) (hstage : self.stage = .send n)
      (hat : self.interfaceAt n = some interface) (hout : interface.outChannel ≠ none) :
      Steps forms instant shared self shared
        ((self.setInterface n (emptied (pushed self interface))).atStage
          (.sending n (pushed self interface).outgoingAdvertisements.items)) none
  | sendDone (n : ℕ) (hstage : self.stage = .send n) (hlen : self.process.sessions.length ≤ n) :
      Steps forms instant shared self shared (cleared self) none
  | sendingDone (n : ℕ) (rest : List Advertisement) (hstage : self.stage = .sending n rest)
      (hrest : rest = [] ∨ self.interfaceAt n = none ∨
        ∃ interface, self.interfaceAt n = some interface ∧ interface.outChannel = none) :
      Steps forms instant shared self shared (self.atStage (.send (n + 1))) none
  | filterOut (n : ℕ) (interface : Interface) (ad : Advertisement) (rest : List Advertisement)
      (hstage : self.stage = .sending n (ad :: rest)) (hat : self.interfaceAt n = some interface)
      (hkeep : (interface.outFilter ad).1 = false) :
      Steps forms instant shared self shared (self.atStage (.sending n rest)) none
  | put (n : ℕ) (interface : Interface) (ad : Advertisement) (rest : List Advertisement)
      (id : ChannelId) (channel : Channel) (hstage : self.stage = .sending n (ad :: rest))
      (hat : self.interfaceAt n = some interface) (hout : interface.outChannel = some id)
      (hkeep : (interface.outFilter ad).1 = true)
      (hsend : (shared.links id).trySend (.advertisement (interface.outFilter ad).2) =
        .ok channel) :
      Steps forms instant shared self (Shared.setLink shared id channel)
        (self.atStage (.sending n rest))
        (some (.put id (.advertisement (interface.outFilter ad).2)))
  | refuse (n : ℕ) (interface : Interface) (ad : Advertisement) (rest : List Advertisement)
      (id : ChannelId) (e : TrySendError) (hstage : self.stage = .sending n (ad :: rest))
      (hat : self.interfaceAt n = some interface) (hout : interface.outChannel = some id)
      (hkeep : (interface.outFilter ad).1 = true)
      (hsend : (shared.links id).trySend (.advertisement (interface.outFilter ad).2) =
        .error e) :
      Steps forms instant shared self shared (self.atStage (.send (n + 1)))
        (some (.refuse id (.advertisement (interface.outFilter ad).2)))

section Inversion
variable {instant : Instant} {shared shared' : Shared} {self self' : Thread}
  {effect : Option Effect} {n : ℕ}

/-- The loop of `receive` ends with a message that is not an advertisement, or that the
filter accepts and that finds no room. -/
theorem take_eq_idle {interface interface' : Interface} {message : Message}
    (h : Endpoint.take interface message = ⟨interface', .idle⟩) :
    interface' = interface ∧ (message.cast = none ∨ ∃ ad, message = .advertisement ad ∧
      (interface.inFilter ad).1 = true ∧ interface.incomingAdvertisements.room = 0) := by
  unfold Endpoint.take at h
  cases message with
  | foreign type =>
    simp only [Message.cast, Endpoint.mk.injEq, and_true] at h
    exact ⟨h.symm, Or.inl rfl⟩
  | advertisement ad =>
    simp only [Message.cast] at h
    by_cases hkeep : (interface.inFilter ad).1 = true
    · by_cases hroom : interface.incomingAdvertisements.items.length <
        interface.incomingAdvertisements.capacity
      · simp [hkeep, hroom] at h
      · simp only [hkeep, if_true, hroom, dif_neg, not_false_eq_true, Endpoint.mk.injEq,
          and_true] at h
        refine ⟨h.symm, Or.inr ⟨ad, rfl, hkeep, ?_⟩⟩
        unfold Bounded.room
        omega
    · simp [hkeep] at h

/-- The loop of `receive` goes on after an advertisement that is stored or filtered out. -/
theorem take_eq_receiving {interface interface' : Interface} {message : Message}
    (h : Endpoint.take interface message = ⟨interface', .receiving⟩) :
    ∃ ad, message = .advertisement ad ∧
      (((interface.inFilter ad).1 = true ∧ ∃ hroom, interface' = { interface with
          incomingAdvertisements := interface.incomingAdvertisements.push
            (interface.inFilter ad).2 hroom }) ∨
        ((interface.inFilter ad).1 = false ∧ interface' = interface)) := by
  unfold Endpoint.take at h
  cases message with
  | foreign type => simp [Message.cast] at h
  | advertisement ad =>
    refine ⟨ad, rfl, ?_⟩
    simp only [Message.cast] at h
    by_cases hkeep : (interface.inFilter ad).1 = true
    · by_cases hroom : interface.incomingAdvertisements.items.length <
        interface.incomingAdvertisements.capacity
      · simp only [hkeep, if_true, hroom, dif_pos, Endpoint.mk.injEq, and_true] at h
        exact Or.inl ⟨hkeep, hroom, h.symm⟩
      · simp [hkeep, hroom] at h
    · simp only [hkeep, Bool.false_eq_true, if_false, Endpoint.mk.injEq, and_true] at h
      exact Or.inr ⟨by simpa using hkeep, h.symm⟩

theorem steps_beginReceive (hstage : self.stage = .receive n) :
    Steps forms instant shared self shared (self.beginReceive n instant.lock) none := by
  unfold Thread.beginReceive
  by_cases hlt : n < self.process.sessions.length
  · rw [if_pos hlt]
    cases hat : self.interfaceAt n with
    | none => exact .receiveUnset n (Or.inl hstage) hat (Or.inl hlt)
    | some interface =>
      cases hin : interface.inChannel with
      | none =>
        simp only [hin]
        refine .collect n interface (Or.inl hstage) hat ?_
        intro id hid
        rw [hin] at hid
        cases hid
      | some id =>
        have hne : interface.inChannel ≠ none := by
          rw [hin]
          exact Option.some_ne_none id
        simp only [hin]
        cases hlock : instant.lock with
        | timedOut => exact .receiveTimedOut n interface hstage hat hne hlock
        | acquired => exact .receiveBegin n interface hstage hat hne hlock
  · rw [if_neg hlt]
    exact .receiveDone n hstage (Nat.le_of_not_lt hlt)

theorem steps_receiveRound {interface : Interface} (hstage : self.stage = .receiving n)
    (hat : self.interfaceAt n = some interface) {links : Links}
    (h : self.receiveRound n interface shared.links = (links, self', effect)) :
    Steps forms instant shared self { shared with links := links } self' effect := by
  unfold Thread.receiveRound at h
  cases hin : interface.inChannel with
  | none =>
    simp only [hin, Prod.mk.injEq] at h
    obtain ⟨rfl, rfl, rfl⟩ := h
    refine .collect n interface (Or.inr hstage) hat ?_
    intro id hid
    rw [hin] at hid
    cases hid
  | some id =>
    cases hqueue : (shared.links id).queue.items with
    | nil =>
      simp only [hin, hqueue, Prod.mk.injEq] at h
      obtain ⟨rfl, rfl, rfl⟩ := h
      refine .collect n interface (Or.inr hstage) hat ?_
      intro id' hid
      obtain rfl := Option.some.inj (hin.symm.trans hid)
      exact ⟨hstage, hqueue⟩
    | cons message rest =>
      rcases htake : Endpoint.take interface message with ⟨interface', activity⟩
      simp only [hin, hqueue, htake] at h
      cases activity with
      | receiving =>
        obtain ⟨rfl, rfl, rfl⟩ := h
        exact .take n interface interface' id message rest hstage hat hin hqueue htake
      | sending left => exact absurd htake (take_ne_sending left)
      | idle =>
        obtain ⟨rfl, hcast | ⟨ad, rfl, hkeep, hfull⟩⟩ := take_eq_idle htake
        · simp only [hcast] at h
          obtain ⟨rfl, rfl, rfl⟩ := h
          exact .discardForeign n _ id message rest hstage hat hin hqueue hcast
        · simp only [Message.cast] at h
          obtain ⟨rfl, rfl, rfl⟩ := h
          exact .discardFull n _ id ad rest hstage hat hin hqueue hkeep hfull

theorem pushed_outChannel (self : Thread) (interface : Interface) :
    (pushed self interface).outChannel = interface.outChannel :=
  Interface.pushOutgoingAdvertisements_outChannel _

theorem begin_send_nothing {interface : Interface}
    (h : interface.outgoingAdvertisements.items = [] ∨ interface.outChannel = none) :
    (Endpoint.begin interface .send).1 = ⟨interface, .idle⟩ := by
  unfold Endpoint.begin
  by_cases hnil : interface.outgoingAdvertisements.items = []
  · rw [if_pos hnil]
  · rw [if_neg hnil, h.resolve_left hnil]

theorem begin_send_loop {interface : Interface}
    (h : interface.outgoingAdvertisements.items ≠ []) (hout : interface.outChannel ≠ none) :
    (Endpoint.begin interface .send).1 =
      ⟨emptied interface, .sending interface.outgoingAdvertisements.items⟩ := by
  unfold Endpoint.begin
  rw [if_neg h]
  cases hchannel : interface.outChannel with
  | none => exact absurd hchannel hout
  | some id => simp [emptied, hchannel]

theorem steps_beginSend (hstage : self.stage = .send n) :
    Steps forms instant shared self shared (self.beginSend n) none := by
  unfold Thread.beginSend
  by_cases hlt : n < self.process.sessions.length
  · rw [if_pos hlt]
    cases hat : self.interfaceAt n with
    | none => exact .sendUnset n hstage hat hlt
    | some interface =>
      have hpushed := pushed_outChannel self interface
      by_cases hnothing : (pushed self interface).outgoingAdvertisements.items = [] ∨
        (pushed self interface).outChannel = none
      · have hbegin := begin_send_nothing hnothing
        unfold pushed at hbegin
        simp only [hbegin]
        rw [hpushed] at hnothing
        exact .sendNothing n interface hstage hat hnothing
      · obtain ⟨hsome, hout⟩ := not_or.mp hnothing
        have hbegin := begin_send_loop hsome hout
        unfold pushed at hbegin
        simp only [hbegin]
        rw [hpushed] at hout
        exact .sendBegin n interface hstage hat hout
  · rw [if_neg hlt]
    exact .sendDone n hstage (Nat.le_of_not_lt hlt)

theorem steps_sendRound {interface : Interface} {ad : Advertisement} {rest : List Advertisement}
    (hstage : self.stage = .sending n (ad :: rest)) (hat : self.interfaceAt n = some interface)
    {links : Links}
    (h : self.sendRound n interface shared.links ad rest = (links, self', effect)) :
    Steps forms instant shared self { shared with links := links } self' effect := by
  unfold Thread.sendRound at h
  by_cases hkeep : (interface.outFilter ad).1 = true
  · simp only [hkeep, if_true] at h
    cases hout : interface.outChannel with
    | none =>
      simp only [hout, Prod.mk.injEq] at h
      obtain ⟨rfl, rfl, rfl⟩ := h
      exact .sendingDone n _ hstage (Or.inr (Or.inr ⟨interface, hat, hout⟩))
    | some id =>
      simp only [hout] at h
      cases hsend : (shared.links id).trySend (.advertisement (interface.outFilter ad).2) with
      | ok channel =>
        simp only [hsend, Prod.mk.injEq] at h
        obtain ⟨rfl, rfl, rfl⟩ := h
        exact .put n interface ad rest id channel hstage hat hout hkeep hsend
      | error e =>
        simp only [hsend, Prod.mk.injEq] at h
        obtain ⟨rfl, rfl, rfl⟩ := h
        exact .refuse n interface ad rest id e hstage hat hout hkeep hsend
  · simp only [hkeep, Bool.false_eq_true, if_false, Prod.mk.injEq] at h
    obtain ⟨rfl, rfl, rfl⟩ := h
    exact .filterOut n interface ad rest hstage hat (by simpa using hkeep)

/-- Each step is one of the cases. -/
theorem steps_of_step (h : self.step forms instant shared = .ok ((shared', self'), effect)) :
    Steps forms instant shared self shared' self' effect := by
  unfold Thread.step at h
  cases hstage : self.stage with
  | receive n =>
    simp only [hstage, Except.ok.injEq, Prod.mk.injEq] at h
    obtain ⟨⟨rfl, rfl⟩, rfl⟩ := h
    exact steps_beginReceive hstage
  | receiving n =>
    simp only [hstage] at h
    cases hat : self.interfaceAt n with
    | none =>
      simp only [hat, Except.ok.injEq, Prod.mk.injEq] at h
      obtain ⟨⟨rfl, rfl⟩, rfl⟩ := h
      exact .receiveUnset n (Or.inr hstage) hat (Or.inr hstage)
    | some interface =>
      rcases hround : self.receiveRound n interface shared.links with ⟨links, next, effect'⟩
      simp only [hat, hround, Except.ok.injEq, Prod.mk.injEq] at h
      obtain ⟨⟨rfl, rfl⟩, rfl⟩ := h
      exact steps_receiveRound hstage hat hround
  | update ads =>
    cases ads with
    | nil =>
      simp only [hstage, Except.ok.injEq, Prod.mk.injEq] at h
      obtain ⟨⟨rfl, rfl⟩, rfl⟩ := h
      exact .updateDone hstage
    | cons ad rest =>
      cases hlock : instant.lock with
      | timedOut =>
        simp only [hstage, hlock, Except.ok.injEq, Prod.mk.injEq] at h
        obtain ⟨⟨rfl, rfl⟩, rfl⟩ := h
        exact .skip ad rest hstage hlock
      | acquired =>
        simp only [hstage, hlock, Thread.applyUpdate] at h
        rcases hupdate : self.process.ribInterface.updateLocked forms (shared.ribs self.rib) ad
          with panic | ⟨rib, ribInterface⟩
        · simp [hupdate] at h
        · simp only [hupdate, Except.ok.injEq, Prod.mk.injEq] at h
          obtain ⟨⟨rfl, rfl⟩, rfl⟩ := h
          exact .apply ad rest rib ribInterface hstage hlock hupdate
  | publish =>
    simp only [hstage, Except.ok.injEq, Prod.mk.injEq] at h
    obtain ⟨⟨rfl, rfl⟩, rfl⟩ := h
    exact .publish hstage
  | send n =>
    simp only [hstage, Except.ok.injEq, Prod.mk.injEq] at h
    obtain ⟨⟨rfl, rfl⟩, rfl⟩ := h
    exact steps_beginSend hstage
  | sending n ads =>
    cases ads with
    | nil =>
      simp only [hstage, Except.ok.injEq, Prod.mk.injEq] at h
      obtain ⟨⟨rfl, rfl⟩, rfl⟩ := h
      exact .sendingDone n [] hstage (Or.inl rfl)
    | cons ad rest =>
      simp only [hstage] at h
      cases hat : self.interfaceAt n with
      | none =>
        simp only [hat, Except.ok.injEq, Prod.mk.injEq] at h
        obtain ⟨⟨rfl, rfl⟩, rfl⟩ := h
        exact .sendingDone n _ hstage (Or.inr (Or.inl hat))
      | some interface =>
        rcases hround : self.sendRound n interface shared.links ad rest with ⟨links, next, effect'⟩
        simp only [hat, hround, Except.ok.injEq, Prod.mk.injEq] at h
        obtain ⟨⟨rfl, rfl⟩, rfl⟩ := h
        exact steps_sendRound hstage hat hround

end Inversion

/-- Channels and filters of an interface. -/
structure Port where
  inChannel : Option ChannelId
  outChannel : Option ChannelId
  inFilter : Interfaces.Filter Advertisement
  outFilter : Interfaces.Filter Advertisement

def portOf (interface : Interface) : Port :=
  ⟨interface.inChannel, interface.outChannel, interface.inFilter, interface.outFilter⟩

/-- What is set up before a process runs. -/
structure Setting where
  id : Uuid
  config : ProcessConfig
  rib : RibId
  clientId : Uuid
  ports : List (Option Port)

def settingOf (self : Thread) : Setting where
  id := self.process.id
  config := self.process.config
  rib := self.rib
  clientId := self.process.ribInterface.clientId
  ports := self.process.sessions.map (fun session => session.interface.map portOf)

section Settings
variable {instant : Instant} {shared shared' : Shared} {self self' : Thread}
  {effect : Option Effect} {n : ℕ} {interface interface' : Interface}

theorem portAt_eq (self : Thread) (n : ℕ) :
    (settingOf self).ports[n]?.join = (self.interfaceAt n).map portOf := by
  unfold settingOf Thread.interfaceAt
  rw [List.getElem?_map]
  cases self.process.sessions[n]? <;> simp

theorem settingOf_setInterface (hat : self.interfaceAt n = some interface)
    (hport : portOf interface' = portOf interface) :
    settingOf (self.setInterface n interface') = settingOf self := by
  have hports : (settingOf (self.setInterface n interface')).ports = (settingOf self).ports := by
    apply List.ext_getElem?
    intro m
    unfold settingOf Thread.setInterface
    simp only [List.getElem?_map, List.getElem?_modify]
    by_cases hm : n = m
    · subst hm
      unfold Thread.interfaceAt at hat
      obtain ⟨session, hsession, hinterface⟩ := Option.bind_eq_some_iff.mp hat
      simp [hsession, hinterface, BgpSession.withInterface, hport]
    · simp [hm]
  exact (Setting.mk.injEq _ _ _ _ _ _ _ _ _ _).mpr ⟨rfl, rfl, rfl, rfl, hports⟩

theorem portOf_pushed (self : Thread) (interface : Interface) :
    portOf (pushed self interface) = portOf interface := by
  unfold pushed
  by_cases hnone : interface.outChannel.isNone = true
  · rw [Interface.pushOutgoingAdvertisements_of_none hnone]
  · rw [Interface.pushOutgoingAdvertisements_of_some hnone]
    rfl

theorem portOf_take {message : Message} {activity : Activity}
    (h : Endpoint.take interface message = ⟨interface', activity⟩) :
    portOf interface' = portOf interface := by
  cases activity with
  | idle => rw [(take_eq_idle h).1]
  | sending left => exact absurd h (take_ne_sending left)
  | receiving =>
    obtain ⟨ad, -, ⟨-, hroom, rfl⟩ | ⟨-, rfl⟩⟩ := take_eq_receiving h
    · rfl
    · rfl

theorem clientId_updateLocked {self self' : BgpRibInterface} {rib rib' : BgpRib}
    {ad : Advertisement} (h : self.updateLocked forms rib ad = .ok (rib', self')) :
    self'.clientId = self.clientId := by
  rw [updateLocked_eq] at h
  obtain ⟨⟨next, changes⟩, -, heq⟩ := Runs.map_eq_ok.mp h
  obtain ⟨-, rfl⟩ := Prod.mk.inj heq
  rfl

theorem Steps.settingOf_eq (h : Steps forms instant shared self shared' self' effect) :
    settingOf self' = settingOf self := by
  cases h with
  | collect n interface hstage hat hnothing => exact settingOf_setInterface hat rfl
  | take n interface interface' id message rest hstage hat hin hqueue htake =>
    exact settingOf_setInterface hat (portOf_take htake)
  | discardForeign n interface id message rest hstage hat hin hqueue hcast =>
    exact settingOf_setInterface hat rfl
  | discardFull n interface id ad rest hstage hat hin hqueue hkeep hfull =>
    exact settingOf_setInterface hat rfl
  | apply ad rest rib ribInterface hstage hlock hupdate =>
    have hclient := clientId_updateLocked hupdate
    simp only [settingOf, withRibInterface, Thread.atStage, hclient]
  | sendNothing n interface hstage hat hnothing =>
    exact settingOf_setInterface hat (portOf_pushed self interface)
  | sendBegin n interface hstage hat hout =>
    exact settingOf_setInterface hat (portOf_pushed self interface)
  | _ => rfl

end Settings

section Threads
variable {ι : Type*} [DecidableEq ι]

def Threads.setThread (state : Threads ι) (i : ι) (self : Thread) (shared : Shared) : Threads ι :=
  ⟨Function.update state.thread i (some self), shared⟩

@[simp]
theorem setThread_self (state : Threads ι) (i : ι) (self : Thread) (shared : Shared) :
    (Threads.setThread state i self shared).thread i = some self := by
  simp [Threads.setThread]

theorem setThread_of_ne (state : Threads ι) {i j : ι} (hij : j ≠ i) (self : Thread)
    (shared : Shared) : (Threads.setThread state i self shared).thread j = state.thread j := by
  simp [Threads.setThread, hij]

end Threads

/-- An event that ends in this state, with this effect. -/
inductive Moves {ι : Type*} [DecidableEq ι] (forms : TextForms) (state : Threads ι) :
    Event ι → Threads ι → Option (Option ι × Effect) → Prop
  | absent (i : ι) (instant : Instant) (hthread : state.thread i = none) :
      Moves forms state (.act i instant) state none
  | act (i : ι) (instant : Instant) (self self' : Thread) (shared : Shared)
      (effect : Option Effect) (hthread : state.thread i = some self)
      (hsteps : Steps forms instant state.shared self shared self' effect) :
      Moves forms state (.act i instant) (Threads.setThread state i self' shared)
        (effect.map (some i, ·))
  | arrive (id : ChannelId) (message : Message) (channel : Channel)
      (hsend : (state.shared.links id).trySend message = .ok channel) :
      Moves forms state (.arrive id message)
        ⟨state.thread, Shared.setLink state.shared id channel⟩ (some (none, .put id message))
  | arriveFull (id : ChannelId) (message : Message) (e : TrySendError)
      (hsend : (state.shared.links id).trySend message = .error e) :
      Moves forms state (.arrive id message) state (some (none, .refuse id message))
  | leave (id : ChannelId) (message : Message) (rest : List Message)
      (hqueue : (state.shared.links id).queue.items = message :: rest) :
      Moves forms state (.leave id) ⟨state.thread, Shared.pop state.shared id⟩
        (some (none, .take id message))
  | leaveNothing (id : ChannelId) (hqueue : (state.shared.links id).queue.items = []) :
      Moves forms state (.leave id) state none

section Events
variable {ι : Type*} [DecidableEq ι] {state state' : Threads ι} {event : Event ι}
  {output : Option (Option ι × Effect)}

theorem moves_of_step (h : step forms state event = .ok (state', output)) :
    Moves forms state event state' output := by
  cases event with
  | act i instant =>
    simp only [step] at h
    cases hthread : state.thread i with
    | none =>
      simp only [hthread, Except.ok.injEq, Prod.mk.injEq] at h
      obtain ⟨rfl, rfl⟩ := h
      exact .absent i instant hthread
    | some self =>
      rcases hstep : self.step forms instant state.shared with panic | ⟨⟨shared, self'⟩, effect⟩
      · simp [hthread, hstep] at h
      · simp only [hthread, hstep, Except.ok.injEq, Prod.mk.injEq] at h
        obtain ⟨rfl, rfl⟩ := h
        exact .act i instant self self' shared effect hthread (steps_of_step hstep)
  | arrive id message =>
    simp only [step] at h
    rcases hsend : (state.shared.links id).trySend message with e | channel
    · simp only [hsend, Except.ok.injEq, Prod.mk.injEq] at h
      obtain ⟨rfl, rfl⟩ := h
      exact .arriveFull id message e hsend
    · simp only [hsend, Except.ok.injEq, Prod.mk.injEq] at h
      obtain ⟨rfl, rfl⟩ := h
      exact .arrive id message channel hsend
  | leave id =>
    simp only [step] at h
    cases hqueue : (state.shared.links id).queue.items with
    | nil =>
      simp only [hqueue, Except.ok.injEq, Prod.mk.injEq] at h
      obtain ⟨rfl, rfl⟩ := h
      exact .leaveNothing id hqueue
    | cons message rest =>
      simp only [hqueue, Except.ok.injEq, Prod.mk.injEq] at h
      obtain ⟨rfl, rfl⟩ := h
      exact .leave id message rest hqueue

/-- A thread that is there takes a step of its own. -/
theorem act_cases {i : ι} {instant : Instant} {self : Thread} (hself : state.thread i = some self)
    (h : Moves forms state (.act i instant) state' output) :
    ∃ self' effect, Steps forms instant state.shared self state'.shared self' effect ∧
      state' = Threads.setThread state i self' state'.shared ∧ output = effect.map (some i, ·) := by
  generalize hevent : Event.act i instant = event at h
  cases h with
  | act k instant' old self' shared effect hold hsteps =>
    obtain ⟨rfl, rfl⟩ := Event.act.inj hevent
    obtain rfl := Option.some.inj (hself.symm.trans hold)
    exact ⟨self', effect, hsteps, rfl, rfl⟩
  | absent k instant' hnone =>
    obtain ⟨rfl, rfl⟩ := Event.act.inj hevent
    rw [hself] at hnone
    cases hnone
  | _ => cases hevent

theorem run_nil (state : Threads ι) : run forms state [] = .ok (state, []) := rfl

theorem run_cons {rest : List (Event ι)} {history : List (Option ι × Effect)}
    (h : run forms state (event :: rest) = .ok (state', history)) :
    ∃ next output later, Moves forms state event next output ∧
      run forms next rest = .ok (state', later) ∧ history = output.toList ++ later := by
  obtain ⟨next, output, later, hstep, hrest, hhistory⟩ := Runs.collect_cons_ok.mp h
  exact ⟨next, output, later, moves_of_step hstep, hrest, hhistory⟩

theorem run_append {middle : Threads ι} {earlier later : List (Event ι)}
    {before after : List (Option ι × Effect)}
    (hearlier : run forms state earlier = .ok (middle, before))
    (hlater : run forms middle later = .ok (state', after)) :
    run forms state (earlier ++ later) = .ok (state', before ++ after) :=
  Runs.collect_append_ok hearlier hlater

/-- What every event keeps holds at the end of a run. -/
theorem run_invariant (Inv : Threads ι → Prop)
    (hmove : ∀ state event state' output, Inv state → Moves forms state event state' output →
      Inv state') {events : List (Event ι)} {history : List (Option ι × Effect)}
    (hstate : Inv state) (h : run forms state events = .ok (state', history)) : Inv state' := by
  induction events generalizing state history with
  | nil =>
    obtain ⟨rfl, -⟩ := Prod.mk.inj (Except.ok.inj h)
    exact hstate
  | cons event rest ih =>
    obtain ⟨next, output, later, hmoves, hrest, -⟩ := run_cons h
    exact ih (hmove state event next output hstate hmoves) hrest

/-- Every thread stays, and its settings stay as they are. -/
theorem Moves.setting (h : Moves forms state event state' output) (i : ι) :
    (state'.thread i).map settingOf = (state.thread i).map settingOf := by
  cases h with
  | act j instant self self' shared effect hthread hsteps =>
    by_cases hij : i = j
    · subst hij
      rw [setThread_self, hthread, Option.map_some, Option.map_some, hsteps.settingOf_eq]
    · rw [setThread_of_ne state hij]
  | _ => rfl

theorem setting_run {events : List (Event ι)} {history : List (Option ι × Effect)}
    (h : run forms state events = .ok (state', history)) (i : ι) :
    (state'.thread i).map settingOf = (state.thread i).map settingOf := by
  refine run_invariant (fun reached => (reached.thread i).map settingOf =
    (state.thread i).map settingOf) ?_ rfl h
  intro reached event next output hreached hmoves
  rw [hmoves.setting i, hreached]

end Events

end NetfabricBgp.ThreadSteps
