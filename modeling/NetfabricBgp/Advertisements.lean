import NetfabricBgp.KeyedLog
import NetfabricBgp.RouterMasks
import NetfabricBgp.Routes

/-!
Advertisements and their decoding into routes. Their textual forms
are parsed and printed outside this repository, so these functions are a parameter. A
decoded withdrawal has no next hop, and the path of the message that carried it.
-/
namespace NetfabricBgp.Advertisements

open Addresses Routes RouterMasks KeyedLog

/-- Parsing and printing of addresses, networks and identifiers. -/
structure TextForms where
  parse : String → Option IpAddr
  fromStrTruncate : String → Option IpNetwork
  addrToString : IpAddr → String
  networkToString : IpNetwork → String
  uuidToString : Uuid → String

/-- The forms of three values, for concrete runs. -/
def TextForms.sample : TextForms where
  parse := fun s =>
    if s = "10.0.0.1" then some (.V4 0x0A000001#32)
    else if s = "10.0.0.2" then some (.V4 0x0A000002#32)
    else none
  fromStrTruncate := fun s =>
    if s = "10.0.0.0/8" then some (.V4 (.around 0x0A000000#32 8)) else none
  addrToString := fun a => if a = .V4 0x0A000001#32 then "10.0.0.1" else "10.0.0.2"
  networkToString := fun _ => "10.0.0.0/8"
  uuidToString := fun _ => "00000000-0000-0000-0000-000000000001"

structure Announcement where
  nextHop : String
  prefixes : List String
deriving DecidableEq

inductive AdvertisementType
  | Unknown
  | Update
  | Keepalive
  | Open
  | Notification
  | RisPeerState
deriving DecidableEq

namespace AdvertisementType

/-- `From<String>`, by which a type is deserialized. -/
def ofString : String → AdvertisementType
  | "UPDATE" => .Update
  | "KEEPALIVE" => .Keepalive
  | "OPEN" => .Open
  | "NOTIFICATION" => .Notification
  | "RIS_PEER_STATE" => .RisPeerState
  | "STATE" => .RisPeerState
  | _ => .Unknown

/-- The name of the variant, as which a type is serialized. -/
def variant : AdvertisementType → String
  | .Unknown => "Unknown"
  | .Update => "Update"
  | .Keepalive => "Keepalive"
  | .Open => "Open"
  | .Notification => "Notification"
  | .RisPeerState => "RisPeerState"

/-- The conversion from strings knows none of the names that are written. -/
theorem ofString_variant (msgType : AdvertisementType) : ofString msgType.variant = .Unknown := by
  cases msgType <;> rfl

end AdvertisementType

/-- The timestamp is kept as the bits of the floating point number. -/
structure Advertisement where
  timestamp : UInt64
  peer : String
  peerAsn : String
  id : String
  host : String
  msgType : AdvertisementType
  path : Option Path
  community : Option (List (List UInt64))
  origin : Option String
  announcements : Option (List Announcement)
  raw : Option String
  withdrawals : Option (List String)
deriving DecidableEq

namespace Advertisement

def new : Advertisement where
  timestamp := 0
  peer := ""
  peerAsn := ""
  id := ""
  host := ""
  msgType := .Unknown
  path := none
  community := none
  origin := none
  announcements := none
  raw := none
  withdrawals := none

/-- An update of a peer about 10.0.0.0/8, for concrete runs. -/
def sample (peer nextHop : String) (asns : List UInt64) (announced withdrawn : Bool) :
    Advertisement :=
  { new with
    peer := peer
    msgType := .Update
    path := some (asns.map .ASN)
    announcements := some (if announced then [⟨nextHop, ["10.0.0.0/8"]⟩] else [])
    withdrawals := some (if withdrawn then ["10.0.0.0/8"] else []) }

variable (forms : TextForms)

/-- A route of this message, if its peer and the prefix parse. -/
def route (self : Advertisement) (pfx nextHop : String) : Option Route :=
  match forms.parse self.peer, forms.fromStrTruncate pfx with
  | some peer, some network => some ⟨peer, network, nextHop, self.path.getD []⟩
  | _, _ => none

def getAnnouncements (self : Advertisement) : List Route :=
  (self.announcements.getD []).flatMap (fun announcement =>
    announcement.prefixes.filterMap (fun pfx => self.route forms pfx announcement.nextHop))

def getWithdrawals (self : Advertisement) : List Route :=
  (self.withdrawals.getD []).filterMap (fun withdrawal => self.route forms withdrawal "")

/-- What one advertisement asks of the RIB: first the announcements, then the withdrawals. -/
def entries (self : Advertisement) : List (Entry Route) :=
  (self.getAnnouncements forms).map .add ++ (self.getWithdrawals forms).map .retract

theorem route_eq_some {self : Advertisement} {pfx nextHop : String} {r : Route}
    (h : self.route forms pfx nextHop = some r) :
    r.nextHop = nextHop ∧ r.asPath = self.path.getD [] := by
  unfold route at h
  cases hpeer : forms.parse self.peer with
  | none => simp [hpeer] at h
  | some peer =>
    cases hnetwork : forms.fromStrTruncate pfx with
    | none => simp [hpeer, hnetwork] at h
    | some network =>
      simp only [hpeer, hnetwork, Option.some.injEq] at h
      subst h
      exact ⟨rfl, rfl⟩

theorem parse_peer_of_route {self : Advertisement} {pfx nextHop : String} {r : Route}
    (h : self.route forms pfx nextHop = some r) : forms.parse self.peer = some r.peer := by
  unfold route at h
  cases hpeer : forms.parse self.peer with
  | none => simp [hpeer] at h
  | some peer =>
    cases hnetwork : forms.fromStrTruncate pfx with
    | none => simp [hpeer, hnetwork] at h
    | some network =>
      simp only [hpeer, hnetwork, Option.some.injEq] at h
      subst h
      rfl

/-- With a peer that parses, a route is decoded exactly where the prefix parses. -/
theorem route_of_parse_peer {self : Advertisement} {peer : IpAddr}
    (hpeer : forms.parse self.peer = some peer) (pfx nextHop : String) :
    self.route forms pfx nextHop =
      (forms.fromStrTruncate pfx).map
        (fun network => ⟨peer, network, nextHop, self.path.getD []⟩) := by
  unfold route
  rw [hpeer]
  cases forms.fromStrTruncate pfx <;> rfl

theorem mem_getAnnouncements_iff {self : Advertisement} {r : Route} :
    r ∈ self.getAnnouncements forms ↔
      ∃ announcement ∈ self.announcements.getD [], ∃ pfx ∈ announcement.prefixes,
        self.route forms pfx announcement.nextHop = some r := by
  simp only [getAnnouncements, List.mem_flatMap, List.mem_filterMap]

theorem mem_getWithdrawals_iff {self : Advertisement} {w : Route} :
    w ∈ self.getWithdrawals forms ↔
      ∃ withdrawal ∈ self.withdrawals.getD [], self.route forms withdrawal "" = some w := by
  simp only [getWithdrawals, List.mem_filterMap]

/-- The placeholders of every decoded withdrawal. -/
theorem mem_getWithdrawals {self : Advertisement} {w : Route}
    (h : w ∈ self.getWithdrawals forms) : w.nextHop = "" ∧ w.asPath = self.path.getD [] := by
  obtain ⟨withdrawal, -, hroute⟩ := List.mem_filterMap.mp h
  exact route_eq_some forms hroute

end Advertisement

end NetfabricBgp.Advertisements
