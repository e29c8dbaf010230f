import Mathlib.Algebra.Ring.Nat
import NetfabricBgp.NetworkTables
import NetfabricBgp.RibEntries
import NetfabricBgp.Runs

/-!
The RIB that several routers share, and its operations as the source computes them.
Each operation asks the mask map for the caller's mask first, so each can panic when
the map is full. `held` names what one router reads from the entry of one prefix.
-/
namespace NetfabricBgp.Ribs

open Addresses NetworkTables Routes RouterMasks RibEntries

structure BgpRib where
  routerMaskMap : RouterMaskMap
  treebitmap : IpNetworkTable BgpRibEntry

namespace BgpRib

def new : BgpRib := ⟨RouterMaskMap.new, ∅⟩

def getPrefixCount (self : BgpRib) : ℕ × ℕ := self.treebitmap.len

def getRouterIds (self : BgpRib) : Finset Uuid := self.routerMaskMap.getAllIds

section Counting
variable (self : BgpRib) (iteration : self.treebitmap.Iteration)

def getTotalRouteCount : ℕ :=
  (iteration.list.entries.map (fun entry => entry.2.len)).sum

/-- The counters of `getRoutesCountWithMask` after one more entry. -/
def countEntry (routerMask : RouterMask) (counters : ℕ × ℕ × ℕ)
    (entry : Sigma fun _ : IpNetwork => BgpRibEntry) : ℕ × ℕ × ℕ :=
  let (routeCounter, ipv4Counter, ipv6Counter) := counters
  let entryLen := (entry.2.getWithMask routerMask).length
  (routeCounter + entryLen,
    if entryLen > 0 ∧ entry.1.isIpv4 then ipv4Counter + 1 else ipv4Counter,
    if entryLen > 0 ∧ entry.1.isIpv6 then ipv6Counter + 1 else ipv6Counter)

/-- The numbers of routes, IPv4 prefixes and IPv6 prefixes that a router reads. -/
def getRoutesCountWithMask (routerMask : Uuid) : ℕ × ℕ × ℕ :=
  iteration.list.entries.foldl (countEntry (self.routerMaskMap.tryGet routerMask)) (0, 0, 0)

end Counting

def registerRouter (self : BgpRib) (routerId : Uuid) : Except Panic BgpRib :=
  match self.routerMaskMap.get routerId with
  | .error panic => .error panic
  | .ok (masks, _) => .ok { self with routerMaskMap := masks }

def getRoutesForRouter (self : BgpRib) (address : IpAddr) (router : Uuid) : List Route :=
  let routerMask := self.routerMaskMap.tryGet router
  match self.treebitmap.longestMatch address with
  | some (_, entry) => entry.getWithMask routerMask
  | none => []

def getBestrouteForRouter (self : BgpRib) (address : IpAddr) (router : Uuid) : Option BestRoute :=
  BestRoute.calculate (self.getRoutesForRouter address router)

/-- The route is reported when it would be the best of all routes of the entry. -/
def insertRoute (self : BgpRib) (route : Route) (id : Uuid) :
    Except Panic (BgpRib × Option BestRoute) :=
  match self.routerMaskMap.get id with
  | .error panic => .error panic
  | .ok (masks, routerMask) =>
    match self.treebitmap.exactMatch route.pfx with
    | some entry =>
      let allRoutes := entry.getAll ++ [route]
      let bestroute :=
        if BestRoute.calculate allRoutes = some (BestRoute.ofRoute route)
        then some (BestRoute.ofRoute route) else none
      .ok (⟨masks, self.treebitmap.insert route.pfx (entry.insert routerMask route)⟩, bestroute)
    | none =>
      let ribEntry := BgpRibEntry.new.insert routerMask route
      .ok (⟨masks, self.treebitmap.insert route.pfx ribEntry⟩, some (BestRoute.ofRoute route))

/-- The previous best route of the entry is reported when it is the given route. -/
def removeRoute (self : BgpRib) (route : Route) (id : Uuid) :
    Except Panic (BgpRib × Option BestRoute) :=
  match self.routerMaskMap.get id with
  | .error panic => .error panic
  | .ok (masks, routerMask) =>
    match self.treebitmap.exactMatch route.pfx with
    | some entry =>
      let prevBestroute := BestRoute.calculate entry.getAll
      let entry := entry.withdraw routerMask route
      let treebitmap :=
        if entry.len = 0 then self.treebitmap.erase route.pfx
        else self.treebitmap.insert route.pfx entry
      let report :=
        match prevBestroute with
        | some prevBestroute =>
          if prevBestroute = BestRoute.ofRoute route then some prevBestroute else none
        | none => none
      .ok (⟨masks, treebitmap⟩, report)
    | none => .ok (⟨masks, self.treebitmap⟩, none)

/-- Everything is forgotten, the routers' masks with the routes. -/
def clear (self : BgpRib) : BgpRib :=
  { self with
    treebitmap := ∅
    routerMaskMap := RouterMaskMap.new }

def clone (self : BgpRib) : BgpRib :=
  { new with
    treebitmap := self.treebitmap.copy
    routerMaskMap := self.routerMaskMap }

theorem clone_eq (rib : BgpRib) : rib.clone = rib := by
  rw [clone, IpNetworkTable.copy_eq]

/-- The routes a router reads, by its mask, from the entry stored at a prefix. -/
def held (self : BgpRib) (router : Uuid) (network : IpNetwork) : List Route :=
  match self.treebitmap.exactMatch network with
  | some entry => entry.getWithMask (self.routerMaskMap.tryGet router)
  | none => []

/-- All routes stored at a prefix, whoever holds them. -/
def stored (self : BgpRib) (network : IpNetwork) : List Route :=
  match self.treebitmap.exactMatch network with
  | some entry => entry.getAll
  | none => []

/-- A router's best route at a prefix, among the routes it holds there. -/
def best (self : BgpRib) (router : Uuid) (network : IpNetwork) : Option BestRoute :=
  BestRoute.calculate (self.held router network)

/-- The entry at a prefix; an absent entry counts as the empty one. -/
def entryAt (self : BgpRib) (network : IpNetwork) : BgpRibEntry :=
  (self.treebitmap.exactMatch network).getD BgpRibEntry.new

theorem held_eq_entryAt (rib : BgpRib) (router : Uuid) (network : IpNetwork) :
    rib.held router network =
      (rib.entryAt network).getWithMask (rib.routerMaskMap.tryGet router) := by
  unfold held entryAt
  cases rib.treebitmap.exactMatch network <;> rfl

theorem stored_eq_entryAt (rib : BgpRib) (network : IpNetwork) :
    rib.stored network = (rib.entryAt network).getAll := by
  unfold stored entryAt
  cases rib.treebitmap.exactMatch network <;> rfl

/-- Everything `insertRoute` does, with an absent entry counted as empty. -/
theorem insertRoute_ok {rib rib' : BgpRib} {route : Route} {id : Uuid} {report : Option BestRoute}
    (h : rib.insertRoute route id = .ok (rib', report)) :
    ∃ masks mask, rib.routerMaskMap.get id = .ok (masks, mask) ∧
      rib' = ⟨masks, rib.treebitmap.insert route.pfx ((rib.entryAt route.pfx).insert mask route)⟩ ∧
      report = if ∀ x ∈ rib.stored route.pfx, (x.cmp route).isLE
        then some (BestRoute.ofRoute route) else none := by
  unfold insertRoute at h
  rcases hget : rib.routerMaskMap.get id with panic | ⟨masks, mask⟩
  · rw [hget] at h
    cases h
  refine ⟨masks, mask, rfl, ?_⟩
  rw [hget] at h
  cases hentry : rib.treebitmap.exactMatch route.pfx with
  | none =>
    simp only [hentry, Except.ok.injEq, Prod.mk.injEq] at h
    simp [entryAt, stored, hentry, ← h.1, ← h.2]
  | some entry =>
    simp only [hentry, Except.ok.injEq, Prod.mk.injEq, BestRoute.calculate_eq_some_iff,
      BestRoute.ofRoute, LastMaximum.lastMax_append_eq_self_iff] at h
    simp only [entryAt, stored, hentry, Option.getD_some, ← h.1, ← h.2, BestRoute.ofRoute, and_self]

theorem entryAt_insert (rib : BgpRib) (masks : RouterMaskMap) (network other : IpNetwork)
    (entry : BgpRibEntry) :
    (BgpRib.mk masks (rib.treebitmap.insert network entry)).entryAt other =
      if other = network then entry else rib.entryAt other := by
  unfold entryAt
  rw [IpNetworkTable.exactMatch_insert]
  by_cases h : other = network
  · rw [if_pos h, if_pos h, Option.getD_some]
  · rw [if_neg h, if_neg h]

/-- The table of a removal: an emptied entry is erased, another one is stored back. -/
def afterWithdraw (table : IpNetworkTable BgpRibEntry) (network : IpNetwork)
    (entry : BgpRibEntry) : IpNetworkTable BgpRibEntry :=
  if entry.len = 0 then table.erase network else table.insert network entry

theorem exactMatch_afterWithdraw (table : IpNetworkTable BgpRibEntry) (network other : IpNetwork)
    (entry : BgpRibEntry) :
    (afterWithdraw table network entry).exactMatch other =
      if other = network then (if entry.len = 0 then none else some entry)
      else table.exactMatch other := by
  unfold afterWithdraw
  by_cases hlen : entry.len = 0
  · rw [if_pos hlen, if_pos hlen, IpNetworkTable.exactMatch_erase]
  · rw [if_neg hlen, if_neg hlen, IpNetworkTable.exactMatch_insert]

theorem entryAt_afterWithdraw (rib : BgpRib) (masks : RouterMaskMap) (network other : IpNetwork)
    (entry : BgpRibEntry) :
    (BgpRib.mk masks (afterWithdraw rib.treebitmap network entry)).entryAt other =
      if other = network then entry else rib.entryAt other := by
  unfold entryAt
  rw [exactMatch_afterWithdraw]
  by_cases hn : other = network
  · rw [if_pos hn, if_pos hn]
    by_cases hlen : entry.len = 0
    · rw [if_pos hlen, Option.getD_none]
      exact congrArg BgpRibEntry.mk (BgpRibEntry.len_eq_zero_iff.mp hlen).symm
    · rw [if_neg hlen, Option.getD_some]
  · rw [if_neg hn, if_neg hn]

/-- A removal stores no empty entry. -/
theorem nonempty_of_afterWithdraw {table : IpNetworkTable BgpRibEntry} {network other : IpNetwork}
    {entry stored : BgpRibEntry}
    (h : (afterWithdraw table network entry).exactMatch other = some stored) :
    stored.routes ≠ [] ∨ table.exactMatch other = some stored := by
  rw [exactMatch_afterWithdraw] at h
  by_cases hn : other = network
  · left
    rw [if_pos hn] at h
    by_cases hlen : entry.len = 0
    · rw [if_pos hlen] at h
      cases h
    · rw [if_neg hlen, Option.some.injEq] at h
      subst h
      exact fun hnil => hlen (BgpRibEntry.len_eq_zero_iff.mpr hnil)
  · right
    rwa [if_neg hn] at h

/-- Everything `removeRoute` does, with an absent entry counted as empty. -/
theorem removeRoute_ok {rib rib' : BgpRib} {route : Route} {id : Uuid} {report : Option BestRoute}
    (h : rib.removeRoute route id = .ok (rib', report)) :
    ∃ masks mask, rib.routerMaskMap.get id = .ok (masks, mask) ∧ rib'.routerMaskMap = masks ∧
      (∀ network, rib'.entryAt network =
        if network = route.pfx then (rib.entryAt network).withdraw mask route
        else rib.entryAt network) ∧
      (∀ network entry, rib'.treebitmap.exactMatch network = some entry →
        entry.routes ≠ [] ∨ rib.treebitmap.exactMatch network = some entry) ∧
      report = if BestRoute.calculate (rib.stored route.pfx) = some (BestRoute.ofRoute route)
        then some (BestRoute.ofRoute route) else none := by
  unfold removeRoute at h
  rcases hget : rib.routerMaskMap.get id with panic | ⟨masks, mask⟩
  · rw [hget] at h
    cases h
  refine ⟨masks, mask, rfl, ?_⟩
  rw [hget] at h
  cases hentry : rib.treebitmap.exactMatch route.pfx with
  | none =>
    simp only [hentry, Except.ok.injEq, Prod.mk.injEq] at h
    obtain ⟨rfl, rfl⟩ := h
    refine ⟨rfl, ?_, fun network entry he => Or.inr he, ?_⟩
    · intro network
      by_cases hn : network = route.pfx
      · subst hn
        simp [entryAt, hentry, BgpRibEntry.new, BgpRibEntry.withdraw]
      · simp [entryAt, hn]
    · simp [stored, hentry, BestRoute.calculate_eq_none_iff.mpr]
  | some entry =>
    simp only [hentry, Except.ok.injEq, Prod.mk.injEq] at h
    obtain ⟨rfl, rfl⟩ := h
    refine ⟨rfl, ?_, fun network stored => nonempty_of_afterWithdraw, ?_⟩
    · intro network
      have hat : rib.entryAt route.pfx = entry := by simp [entryAt, hentry]
      refine (entryAt_afterWithdraw rib masks route.pfx network _).trans ?_
      by_cases hn : network = route.pfx
      · rw [if_pos hn, if_pos hn, hn, hat]
      · rw [if_neg hn, if_neg hn]
    · simp only [BgpRib.stored, hentry]
      cases BestRoute.calculate entry.getAll with
      | none => simp
      | some prev =>
        by_cases hprev : prev = BestRoute.ofRoute route
        · simp [hprev]
        · simp [hprev]

/-- One call on a shared RIB. -/
inductive Op
  | registerRouter (id : Uuid)
  | insertRoute (route : Route) (id : Uuid)
  | removeRoute (route : Route) (id : Uuid)
deriving DecidableEq

/-- The router that makes the call. -/
def Op.router : Op → Uuid
  | .registerRouter id => id
  | .insertRoute _ id => id
  | .removeRoute _ id => id

def step (self : BgpRib) : Op → Except Panic BgpRib
  | .registerRouter id => self.registerRouter id
  | .insertRoute route id => (self.insertRoute route id).map Prod.fst
  | .removeRoute route id => (self.removeRoute route id).map Prod.fst

theorem step_registerRouter_ok {rib rib' : BgpRib} {id : Uuid} :
    rib.step (.registerRouter id) = .ok rib' ↔
      ∃ masks mask, rib.routerMaskMap.get id = .ok (masks, mask) ∧
        rib' = { rib with routerMaskMap := masks } := by
  rcases hget : rib.routerMaskMap.get id with panic | ⟨masks, mask⟩
  · simp [step, registerRouter, hget]
  · simp [step, registerRouter, hget, eq_comm]

theorem step_insertRoute_ok {rib rib' : BgpRib} {route : Route} {id : Uuid} :
    rib.step (.insertRoute route id) = .ok rib' ↔
      ∃ report, rib.insertRoute route id = .ok (rib', report) := by
  simp [step, Runs.map_eq_ok]

theorem step_removeRoute_ok {rib rib' : BgpRib} {route : Route} {id : Uuid} :
    rib.step (.removeRoute route id) = .ok rib' ↔
      ∃ report, rib.removeRoute route id = .ok (rib', report) := by
  simp [step, Runs.map_eq_ok]

/-- The RIB after a sequence of calls by any routers. -/
def run (self : BgpRib) (ops : List Op) : Except Panic BgpRib := Runs.run step self ops

end BgpRib

end NetfabricBgp.Ribs
