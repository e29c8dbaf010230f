import NetfabricBgp.Advertisements
import NetfabricBgp.BoundedQueues

/-!
Messages, the bounded channels between interfaces, and attempts to take a lock. A channel
is known by an identifier, as its two ends are handles held in different interfaces.
-/
namespace NetfabricBgp.Channels

open Advertisements BoundedQueues

/-- The outcome of `try_lock_with_timeout`; a poisoned lock times out as well. -/
inductive LockAttempt
  | acquired
  | timedOut
deriving DecidableEq

/-- A message is known by its type; only advertisements carry data that is read here. -/
inductive Message
  | advertisement (ad : Advertisement)
  | foreign (type : String)
deriving DecidableEq

/-- `cast` to the type of advertisements. -/
def Message.cast : Message → Option Advertisement
  | .advertisement ad => some ad
  | .foreign _ => none

abbrev ChannelId := ℕ

inductive TrySendError
  | Full
  | Disconnected
deriving DecidableEq

/-- A queue whose bound is the size of the channel, and whether its receiver still exists. -/
structure Channel where
  queue : Bounded Message
  connected : Bool

namespace Channel

/-- `sync_channel` -/
def create (bound : ℕ) : Channel := ⟨.empty bound, true⟩

def trySend (self : Channel) (message : Message) : Except TrySendError Channel :=
  if self.connected then
    if h : self.queue.items.length < self.queue.capacity then
      .ok { self with queue := self.queue.push message h }
    else .error .Full
  else .error .Disconnected

/-- The number of messages that can still be sent. -/
def room (self : Channel) : ℕ := if self.connected then self.queue.room else 0

theorem trySend_of_room {self : Channel} (message : Message) (h : 0 < self.room) :
    ∃ self', self.trySend message = .ok self' ∧ self'.room + 1 = self.room ∧
      self'.queue.items = self.queue.items ++ [message] := by
  unfold room at h
  by_cases hc : self.connected = true
  · rw [if_pos hc] at h
    have hlt := Bounded.room_pos.mp h
    refine ⟨{ self with queue := self.queue.push message hlt }, ?_, ?_, rfl⟩
    · simp [trySend, hc, hlt]
    · simpa only [room, hc, if_true] using Bounded.room_push self.queue message hlt
  · rw [if_neg hc] at h
    omega

theorem trySend_of_no_room {self : Channel} (message : Message) (h : self.room = 0) :
    ∃ e, self.trySend message = .error e := by
  unfold room at h
  by_cases hc : self.connected = true
  · have hlt : ¬ self.queue.items.length < self.queue.capacity := by
      rw [if_pos hc] at h
      unfold Bounded.room at h
      omega
    exact ⟨.Full, by simp [trySend, hc, hlt]⟩
  · exact ⟨.Disconnected, by simp [trySend, hc]⟩

theorem items_of_trySend {self self' : Channel} {message : Message}
    (h : self.trySend message = .ok self') :
    self'.queue.items = self.queue.items ++ [message] := by
  have hroom : 0 < self.room := by
    rcases Nat.eq_zero_or_pos self.room with hzero | hpos
    · obtain ⟨e, he⟩ := trySend_of_no_room message hzero
      rw [he] at h
      cases h
    · exact hpos
  obtain ⟨channel, hsend, -, hitems⟩ := trySend_of_room message hroom
  obtain rfl := Except.ok.inj (hsend.symm.trans h)
  exact hitems

end Channel

/-- All channels, by their identifiers. -/
abbrev Links := ChannelId → Channel

end NetfabricBgp.Channels
