import NetfabricBgp.RibInterfaces
import NetfabricBgp.Sessions

/-!
A BGP process: its sessions, its access to the RIB and the advertisements it generates
from the best-route changes. Errors of sessions are logged by the source and skipped.
-/
namespace NetfabricBgp.Processes

open Addresses Routes RouterMasks Ribs Advertisements Channels Sessions RibInterfaces

structure ProcessConfig where
  ip : IpAddr
  asNumber : UInt64
deriving DecidableEq

def ProcessConfig.default : ProcessConfig := ⟨.V4 0, 0⟩

structure BgpProcess where
  id : Uuid
  sessions : List BgpSession
  config : ProcessConfig
  ribInterface : BgpRibInterface
  bestrouteUpdates : List BestRoute × List BestRoute
  advertisement : List Advertisement

/-- All sessions receive in order; the lock attempts of their channels are numbered. -/
def receiveSessions (locks : ℕ → LockAttempt) (links : Links) :
    ℕ → List BgpSession → Links × List BgpSession × List Advertisement
  | _, [] => (links, [], [])
  | n, session :: rest =>
    let (links, session, result) := session.receive (locks n) links
    let (links, rest, advertisements) := receiveSessions locks links (n + 1) rest
    match result with
    | .ok received => (links, session :: rest, received ++ advertisements)
    | .error _ => (links, session :: rest, advertisements)

def sendSessions (advertisements : List Advertisement) (links : Links) :
    List BgpSession → Links × List BgpSession
  | [] => (links, [])
  | session :: rest =>
    let (links, session, _) := session.send advertisements links
    let (links, rest) := sendSessions advertisements links rest
    (links, session :: rest)

namespace BgpProcess

def new (id : Uuid) (ribInterface : BgpRibInterface) : BgpProcess where
  id := id
  sessions := []
  config := ProcessConfig.default
  ribInterface := ribInterface
  bestrouteUpdates := ([], [])
  advertisement := []

variable (forms : TextForms)

def receive (self : BgpProcess) (locks ribLocks : ℕ → LockAttempt) (links : Links) (rib : BgpRib) :
    Except Panic (Links × BgpRib × BgpProcess) :=
  let (links, sessions, allAdvertisements) := receiveSessions locks links 0 self.sessions
  let attempts :=
    allAdvertisements.zipIdx.map (fun (advertisement, n) => (ribLocks n, advertisement))
  match self.ribInterface.update forms rib attempts with
  | .error panic => .error panic
  | .ok (rib, ribInterface) =>
    .ok (links, rib, { self with sessions := sessions, ribInterface := ribInterface })

def getBestRouteChanges (self : BgpProcess) : BgpProcess :=
  let (ribInterface, updates) := self.ribInterface.getBestrouteUpdates
  { self with ribInterface := ribInterface, bestrouteUpdates := updates }

/-- The advertisement `generate_advertisement` builds; it has no path. -/
def nextAdvertisement (self : BgpProcess) (timestamp : UInt64) : Advertisement where
  timestamp := timestamp
  peer := forms.addrToString self.config.ip
  peerAsn := toString self.config.asNumber.toNat
  id := forms.uuidToString self.id
  host := forms.addrToString self.config.ip
  msgType := .Update
  path := none
  community := none
  origin := none
  announcements := some (self.bestrouteUpdates.1.map (fun best =>
    ⟨best.route.nextHop, [forms.networkToString best.route.pfx]⟩))
  raw := some ""
  withdrawals := some (self.bestrouteUpdates.2.map (fun best =>
    forms.networkToString best.route.pfx))

def generateAdvertisement (self : BgpProcess) (timestamp : UInt64) : BgpProcess :=
  { self with advertisement := self.advertisement ++ [self.nextAdvertisement forms timestamp] }

def send (self : BgpProcess) (links : Links) : Links × BgpProcess :=
  let (links, sessions) := sendSessions self.advertisement links self.sessions
  (links, { self with sessions := sessions, advertisement := [] })

end BgpProcess

end NetfabricBgp.Processes
