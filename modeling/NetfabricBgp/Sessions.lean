import NetfabricBgp.Interfaces

/-!
Sessions pass advertisements between a process and an interface, and turn a missing
interface into an error of their own.
-/
namespace NetfabricBgp.Sessions

open Addresses RouterMasks Advertisements Channels Interfaces

structure SessionConfig where
  sessionIp : IpAddr
  interfaceIp : IpAddr
  nextHopSelf : Bool
deriving DecidableEq

def SessionConfig.default : SessionConfig := ⟨.V4 0, .V4 0, false⟩

inductive BgpSessionError
  | InterfaceNotSet
  | InterfaceError (error : InterfaceError)
deriving DecidableEq

structure BgpSession where
  id : Uuid
  config : SessionConfig
  interface : Option Interface

namespace BgpSession

def new (id : Uuid) : BgpSession := ⟨id, SessionConfig.default, none⟩

def setConfig (self : BgpSession) (config : SessionConfig) : BgpSession :=
  { self with config := config }

def withInterface (self : BgpSession) (interface : Interface) : BgpSession :=
  { self with interface := some interface }

def receive (self : BgpSession) (lock : LockAttempt) (links : Links) :
    Links × BgpSession × Except BgpSessionError (List Advertisement) :=
  match self.interface with
  | none => (links, self, .error .InterfaceNotSet)
  | some interface =>
    let (links, interface, result) := interface.receive lock links
    match result with
    | .error e => (links, { self with interface := some interface }, .error (.InterfaceError e))
    | .ok () =>
      let (interface, advertisements) := interface.getIncomingAdvertisements
      (links, { self with interface := some interface }, .ok advertisements)

def send (self : BgpSession) (advertisements : List Advertisement) (links : Links) :
    Links × BgpSession × Except BgpSessionError Unit :=
  match self.interface with
  | none => (links, self, .error .InterfaceNotSet)
  | some interface =>
    let (interface, sendResult) := interface.pushOutgoingAdvertisements advertisements
    let (links, interface) := interface.send links
    match sendResult with
    | .ok () => (links, { self with interface := some interface }, .ok ())
    | .error e => (links, { self with interface := some interface }, .error (.InterfaceError e))

/-- The channel a session sends on, and the one it receives from. -/
def outChannel (self : BgpSession) : Option ChannelId := self.interface.bind (·.outChannel)

def inChannel (self : BgpSession) : Option ChannelId := self.interface.bind (·.inChannel)

section Frames
variable {self : BgpSession} {links links' : Links} {other channel : ChannelId}

/-- A session with an interface pushes and sends there, whatever it answers. -/
theorem send_of_interface {interface : Interface} (h : self.interface = some interface)
    (advertisements : List Advertisement) (links : Links) :
    ∃ result, self.send advertisements links =
      (((interface.pushOutgoingAdvertisements advertisements).1.send links).1,
        { self with
          interface := some
            ((interface.pushOutgoingAdvertisements advertisements).1.send links).2 }, result) := by
  unfold send
  rw [h]
  rcases hpush : interface.pushOutgoingAdvertisements advertisements with ⟨pushed, result⟩
  simp only [hpush]
  cases result with
  | ok _ => exact ⟨_, rfl⟩
  | error e => exact ⟨_, rfl⟩

theorem send_of_ne (advertisements : List Advertisement) (h : self.outChannel ≠ some other) :
    (self.send advertisements links).1 other = links other := by
  cases hinterface : self.interface with
  | none =>
    unfold send
    rw [hinterface]
  | some interface =>
    obtain ⟨result, hsend⟩ := send_of_interface hinterface advertisements links
    rw [hsend]
    apply Interface.send_of_ne
    rw [Interface.pushOutgoingAdvertisements_outChannel]
    rwa [outChannel, hinterface, Option.bind_some] at h

theorem receive_congr (lock : LockAttempt) (hin : self.inChannel = some channel)
    (h : links channel = links' channel) :
    (self.receive lock links).2 = (self.receive lock links').2 := by
  unfold receive
  unfold inChannel at hin
  cases hinterface : self.interface with
  | none => rfl
  | some interface =>
    rw [hinterface, Option.bind_some] at hin
    have hsame := Interface.receive_congr lock hin h
    rcases hreceive : interface.receive lock links with ⟨left, received, result⟩
    rcases hreceive' : interface.receive lock links' with ⟨left', received', result'⟩
    rw [hreceive, hreceive'] at hsame
    obtain ⟨rfl, rfl⟩ := Prod.mk.inj hsame
    simp only [hreceive, hreceive']
    cases result <;> rfl

end Frames

end BgpSession

end NetfabricBgp.Sessions
