import NetfabricBgp.Sessions

/-!
What the bounded buffers and channels lose. Receiving loses the first advertisement that
finds the incoming buffer full; sending loses all that the channel has no room for,
although the session answers `Ok`.
-/
namespace NetfabricBgp.BufferLosses

open Advertisements BoundedQueues Channels Interfaces Sessions

section Receiving

/-- Of the advertisements on the channel a front part was taken, and the buffer gained the
accepted ones among them; the others are still there. -/
def ReceivesWithoutLoss (interface : Interface) (lock : LockAttempt) (links : Links)
    (channel : ChannelId) (ads : List Advertisement) : Prop :=
  ∃ taken left, ads = taken ++ left ∧
    (interface.receive lock links).2.1.incomingAdvertisements.items =
      interface.incomingAdvertisements.items ++ accepted interface.inFilter taken ∧
    ((interface.receive lock links).1 channel).queue.items = left.map .advertisement

variable {interface : Interface} {links : Links} {channel : ChannelId} {ads : List Advertisement}

theorem receive_timedOut (hin : interface.inChannel = some channel) :
    interface.receive .timedOut links = (links, interface, .error lockTimedOut) := by
  unfold Interface.receive
  rw [hin]

theorem receive_acquired (interface : Interface) (links : Links) (channel : ChannelId)
    (hin : interface.inChannel = some channel) :
    ((interface.receive .acquired links).1 channel).queue.items =
        (receiveLoop interface.inFilter interface.incomingAdvertisements
          (links channel).queue.items).1 ∧
      (interface.receive .acquired links).2.1.incomingAdvertisements =
        (receiveLoop interface.inFilter interface.incomingAdvertisements
          (links channel).queue.items).2.1 := by
  obtain ⟨links', hreceive, hqueue⟩ := Interface.receive_acquired links hin
  rw [hreceive]
  exact ⟨hqueue, rfl⟩

theorem receivesWithoutLoss_of_fits (hin : interface.inChannel = some channel)
    (hqueue : (links channel).queue.items = ads.map .advertisement)
    (h : (accepted interface.inFilter ads).length ≤ interface.incomingAdvertisements.room) :
    ReceivesWithoutLoss interface .acquired links channel ads := by
  obtain ⟨hleft, hincoming⟩ := receive_acquired interface links channel hin
  have hloop := receiveLoop_append ads [] h
  rw [List.append_nil] at hloop
  rw [hqueue, hloop] at hleft hincoming
  refine ⟨ads, [], (List.append_nil ads).symm, ?_, hleft⟩
  rw [hincoming]
  rfl

theorem not_receivesWithoutLoss_of_overflow (hin : interface.inChannel = some channel)
    (hqueue : (links channel).queue.items = ads.map .advertisement)
    (h : interface.incomingAdvertisements.room < (accepted interface.inFilter ads).length) :
    ¬ ReceivesWithoutLoss interface .acquired links channel ads := by
  intro hlossless
  obtain ⟨taken, left, hads, hgained, hstays⟩ := hlossless
  obtain ⟨hleft, hincoming⟩ := receive_acquired interface links channel hin
  obtain ⟨front, ad, rest, rfl, hlen, hkeep⟩ := exists_first_overflow interface.inFilter h
  have hroom : (interface.incomingAdvertisements.extend _ (Nat.le_of_eq hlen)).room = 0 := by
    unfold Bounded.room at hlen ⊢
    simp only [Bounded.extend, List.length_append]
    omega
  rw [hqueue, List.map_append, List.map_cons,
    receiveLoop_append front _ (Nat.le_of_eq hlen),
    receiveLoop_overflow ad _ hkeep hroom] at hleft hincoming
  -- The queue lost the overflowing element, so the front part taken includes it.
  have hrest : left = rest := by
    apply List.map_injective_iff.mpr (fun _ _ hmessage => Message.advertisement.inj hmessage)
    exact hstays.symm.trans hleft
  subst hrest
  have hfront : taken ++ left = (front ++ [ad]) ++ left := by
    rw [← hads, List.append_assoc]
    rfl
  have htaken : taken = front ++ [ad] := List.append_cancel_right hfront
  rw [hincoming, htaken, accepted_append, Bounded.extend] at hgained
  have hsame := List.append_cancel_left hgained
  have hcount := congrArg List.length hsame
  rw [List.length_append, accepted_cons, if_pos hkeep, List.length_cons] at hcount
  omega

/-- Receiving loses nothing exactly when the lock attempt fails or the buffer has room for
all accepted advertisements on the channel. -/
theorem receivesWithoutLoss_iff_fits (interface : Interface) (lock : LockAttempt) (links : Links)
    (channel : ChannelId) (ads : List Advertisement) (hin : interface.inChannel = some channel)
    (hqueue : (links channel).queue.items = ads.map .advertisement) :
    ReceivesWithoutLoss interface lock links channel ads ↔
      lock = .timedOut ∨
        (accepted interface.inFilter ads).length ≤ interface.incomingAdvertisements.room := by
  cases lock with
  | timedOut =>
    simp only [true_or, iff_true]
    refine ⟨[], ads, rfl, ?_, ?_⟩
    · rw [receive_timedOut hin]
      exact (List.append_nil _).symm
    · rw [receive_timedOut hin]
      exact hqueue
  | acquired =>
    constructor
    · intro hlossless
      right
      by_contra hover
      exact not_receivesWithoutLoss_of_overflow hin hqueue (by omega) hlossless
    · intro hcond
      exact receivesWithoutLoss_of_fits hin hqueue (hcond.resolve_left (by decide))

/-- An interface with buffers of size one, on channel 0 in both directions. -/
def narrowInterface : Interface :=
  (((Interface.new 1 (.V4 1)).setInChannel 0).setOutChannel 0).setBufferSize 1 1 |>.forceResize

/-- An advertisement told from others by its host. -/
def fromHost (host : String) : Advertisement := { Advertisement.new with host := host }

/-- Two advertisements wait on every channel. -/
def twoWaiting : Links := fun _ =>
  ⟨⟨[.advertisement (fromHost "first"), .advertisement (fromHost "second")], 2, by decide⟩, true⟩

theorem receivesWithoutLoss_iff_fits_narrow :
    ReceivesWithoutLoss narrowInterface .acquired twoWaiting 0
        [fromHost "first", fromHost "second"] ↔
      LockAttempt.acquired = .timedOut ∨
        (accepted narrowInterface.inFilter [fromHost "first", fromHost "second"]).length ≤
          narrowInterface.incomingAdvertisements.room :=
  receivesWithoutLoss_iff_fits narrowInterface .acquired twoWaiting 0 _ rfl rfl

/-- The second advertisement is neither in the buffer of size one nor on the channel. -/
theorem not_receivesWithoutLoss_narrow :
    (narrowInterface.receive .acquired twoWaiting).2.1.incomingAdvertisements.items =
        [fromHost "first"] ∧
      ((narrowInterface.receive .acquired twoWaiting).1 0).queue.items = [] ∧
      ¬ ReceivesWithoutLoss narrowInterface .acquired twoWaiting 0
        [fromHost "first", fromHost "second"] :=
  ⟨rfl, rfl, not_receivesWithoutLoss_of_overflow rfl rfl (by decide)⟩

end Receiving

section Sending

/-- If the session answers `Ok`, the accepted advertisements of the buffer and the list are,
in order, on the channel or still in the buffer. -/
def SendsWithoutLoss (session : BgpSession) (interface : Interface) (links : Links)
    (channel : ChannelId) (ads : List Advertisement) : Prop :=
  (session.send ads links).2.2 = .ok () →
    ∃ sent interface', (session.send ads links).2.1.interface = some interface' ∧
      ((session.send ads links).1 channel).queue.items =
        (links channel).queue.items ++ sent.map .advertisement ∧
      sent ++ accepted interface.outFilter interface'.outgoingAdvertisements.items =
        accepted interface.outFilter (interface.outgoingAdvertisements.items ++ ads)

variable {session : BgpSession} {interface : Interface} {channel : ChannelId}
  {ads : List Advertisement}

theorem pushOutgoingAdvertisements_fits (hout : interface.outChannel = some channel)
    (h : ads.length ≤ interface.outgoingAdvertisements.room) :
    interface.pushOutgoingAdvertisements ads =
      ({ interface with
          outgoingAdvertisements := interface.outgoingAdvertisements.extend ads h }, .ok ()) := by
  have hsome : ¬ interface.outChannel.isNone = true := by simp [hout]
  rw [Interface.pushOutgoingAdvertisements_of_some hsome, if_pos h]
  simp only [List.take_of_length_le h]

theorem pushOutgoingAdvertisements_overflow (hout : interface.outChannel = some channel)
    (h : interface.outgoingAdvertisements.room < ads.length) :
    ∃ e, (interface.pushOutgoingAdvertisements ads).2 = .error e := by
  refine ⟨.OutgoingBufferCapacityExceeded, ?_⟩
  have hsome : ¬ interface.outChannel.isNone = true := by simp [hout]
  rw [Interface.pushOutgoingAdvertisements_of_some hsome, if_neg (Nat.not_le_of_lt h)]

/-- Sending empties the buffer, and the channel gets what it has room for. -/
theorem interface_send (links : Links) (hout : interface.outChannel = some channel) :
    (interface.send links).2.outgoingAdvertisements.items = [] ∧
      ((interface.send links).1 channel).queue.items = (links channel).queue.items ++
        ((accepted interface.outFilter interface.outgoingAdvertisements.items).take
          (links channel).room).map .advertisement := by
  unfold Interface.send
  by_cases hnil : interface.outgoingAdvertisements.items = []
  · simp [hnil]
  · simp [hnil, hout, Bounded.empty, sendLoop_items]

/-- `Ok` means that the list fitted the buffer; the channel then gets what it has room for. -/
theorem session_send_fits (links : Links) (hsession : session.interface = some interface)
    (hout : interface.outChannel = some channel)
    (h : ads.length ≤ interface.outgoingAdvertisements.room) :
    (session.send ads links).2.2 = .ok () ∧
      (∃ interface', (session.send ads links).2.1.interface = some interface' ∧
        interface'.outgoingAdvertisements.items = []) ∧
      ((session.send ads links).1 channel).queue.items = (links channel).queue.items ++
        ((accepted interface.outFilter (interface.outgoingAdvertisements.items ++ ads)).take
          (links channel).room).map .advertisement := by
  have hpush := pushOutgoingAdvertisements_fits hout h
  have hout' : (interface.pushOutgoingAdvertisements ads).1.outChannel = some channel := by
    rw [hpush]
    exact hout
  obtain ⟨hempty, hqueue⟩ := interface_send links hout'
  unfold BgpSession.send
  rw [hsession]
  simp only [hpush] at hempty hqueue ⊢
  exact ⟨trivial, ⟨_, rfl, hempty⟩, hqueue⟩

theorem session_send_overflow (links : Links) (hsession : session.interface = some interface)
    (hout : interface.outChannel = some channel)
    (h : interface.outgoingAdvertisements.room < ads.length) :
    ∃ e, (session.send ads links).2.2 = .error e := by
  obtain ⟨e, he⟩ := pushOutgoingAdvertisements_overflow hout h
  refine ⟨.InterfaceError e, ?_⟩
  unfold BgpSession.send
  rw [hsession]
  simp only [he]

/-- `Ok` from a session loses nothing exactly when the channel has room for all accepted
advertisements; a list that does not fit the buffer is answered by an error. -/
theorem sendsWithoutLoss_iff_fits (session : BgpSession) (interface : Interface) (links : Links)
    (channel : ChannelId) (ads : List Advertisement)
    (hsession : session.interface = some interface)
    (hout : interface.outChannel = some channel) :
    SendsWithoutLoss session interface links channel ads ↔
      interface.outgoingAdvertisements.room < ads.length ∨
        (accepted interface.outFilter (interface.outgoingAdvertisements.items ++ ads)).length ≤
          (links channel).room := by
  by_cases hfit : interface.outgoingAdvertisements.room < ads.length
  · simp only [hfit, true_or, iff_true]
    intro hok
    obtain ⟨e, he⟩ := session_send_overflow links hsession hout hfit
    rw [he] at hok
    cases hok
  obtain ⟨hok, ⟨interface', hinterface, hempty⟩, hqueue⟩ :=
    session_send_fits links hsession hout (by omega : ads.length ≤ _)
  simp only [hfit, false_or]
  constructor
  · intro hlossless
    obtain ⟨sent, interface'', hinterface', hsent, hkept⟩ := hlossless hok
    obtain rfl : interface' = interface'' := Option.some.inj (hinterface.symm.trans hinterface')
    rw [hempty, accepted_nil, List.append_nil] at hkept
    rw [hqueue, hkept] at hsent
    have hlen := congrArg List.length (List.append_cancel_left hsent)
    rw [List.length_map, List.length_map, List.length_take] at hlen
    omega
  · intro hroom _
    refine ⟨_, interface', hinterface, hqueue, ?_⟩
    rw [hempty, List.take_of_length_le hroom, accepted_nil, List.append_nil]

/-- A channel with a bound of one, and nothing on it. -/
def emptyLinks : Links := fun _ => Channel.create 1

/-- The channel is full with an earlier advertisement. -/
def fullLinks : Links := fun _ => ⟨⟨[.advertisement (fromHost "first")], 1, by decide⟩, true⟩

def narrowSession : BgpSession := (BgpSession.new 1).withInterface narrowInterface

theorem sendsWithoutLoss_iff_fits_narrow :
    SendsWithoutLoss narrowSession narrowInterface emptyLinks 0 [fromHost "first"] ↔
      narrowInterface.outgoingAdvertisements.room < [fromHost "first"].length ∨
        (accepted narrowInterface.outFilter
          (narrowInterface.outgoingAdvertisements.items ++ [fromHost "first"])).length ≤
            (emptyLinks 0).room :=
  sendsWithoutLoss_iff_fits narrowSession narrowInterface emptyLinks 0 _ rfl rfl

/-- The session answers `Ok`, but the advertisement is neither on the full channel nor in the
buffer. -/
theorem not_sendsWithoutLoss_full :
    (narrowSession.send [fromHost "second"] fullLinks).2.2 = .ok () ∧
      ((narrowSession.send [fromHost "second"] fullLinks).1 0).queue.items =
        [.advertisement (fromHost "first")] ∧
      ¬ SendsWithoutLoss narrowSession narrowInterface fullLinks 0 [fromHost "second"] := by
  refine ⟨rfl, rfl, ?_⟩
  intro hlossless
  obtain ⟨sent, interface', hinterface, hsent, hkept⟩ := hlossless rfl
  obtain rfl := Option.some.inj hinterface
  have hqueue : [Message.advertisement (fromHost "first")] =
      .advertisement (fromHost "first") :: sent.map .advertisement := hsent
  obtain rfl : sent = [] := List.map_eq_nil_iff.mp (List.cons.inj hqueue).2.symm
  exact absurd hkept (by decide)

end Sending

end NetfabricBgp.BufferLosses
