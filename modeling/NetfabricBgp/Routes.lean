import NetfabricBgp.Addresses
import NetfabricBgp.LastMaximum

/-!
Routes, their comparison and the choice of the best one. Routes are equal when all
fields agree, but the comparison looks at the length of the path and at the peer only,
so different routes may tie. The field `pfx` is the source's `prefix`.
-/
namespace NetfabricBgp.Routes

open BitPrefix Addresses LastMaximum

inductive PathElement
  | ASN (asn : UInt64)
  | ASSet (asns : List UInt64)
deriving DecidableEq

abbrev Path := List PathElement

structure Route where
  peer : IpAddr
  pfx : IpNetwork
  nextHop : String
  asPath : Path
deriving DecidableEq

namespace Route

/-- A route to the block of this length around 10.1.2.3, for concrete runs. -/
def sample (peer : BitVec 32) (length : ℕ) (nextHop : String) (asns : List UInt64) : Route where
  peer := .V4 peer
  pfx := .V4 (Block.around 0x0A010203#32 length)
  nextHop := nextHop
  asPath := asns.map .ASN

/-- What a withdrawal identifies a route by. -/
def key (route : Route) : IpAddr × IpNetwork := (route.peer, route.pfx)

def partialCmp (self other : Route) : Option Ordering :=
  if self.asPath.length ≠ other.asPath.length then
    some (compare self.asPath.length other.asPath.length).swap
  else if self.peer ≠ other.peer then
    some (self.peer.cmp other.peer)
  else
    none

def cmp (self other : Route) : Ordering :=
  match self.partialCmp other with
  | some ordering => ordering
  | none => .eq

/-- The comparison is lexicographic: the shorter path first, then the higher peer. -/
theorem cmp_eq_compareLex :
    cmp = compareLex (fun a b : Route => compare b.asPath.length a.asPath.length)
      (compareOn (fun a : Route => a.peer.position)) := by
  funext a b
  simp only [cmp, partialCmp, compareLex, compareOn, IpAddr.cmp_eq_compare_position]
  by_cases hlen : a.asPath.length = b.asPath.length
  · by_cases hpeer : a.peer = b.peer
    · simp [hlen, hpeer]
    · simp [hlen, hpeer]
  · have hne : compare b.asPath.length a.asPath.length ≠ .eq := by
      rw [Ne, Nat.compare_eq_eq]
      exact Ne.symm hlen
    simp only [ne_eq, hlen, not_false_eq_true, if_true, Nat.compare_swap]
    cases h : compare b.asPath.length a.asPath.length <;> simp_all [Ordering.then]

instance transCmp : Std.TransCmp cmp := by
  rw [cmp_eq_compareLex]
  have : Std.TransCmp (fun a b : Route => compare b.asPath.length a.asPath.length) :=
    inferInstanceAs (Std.TransCmp (fun a b : Route =>
      compareOn (fun r : Route => r.asPath.length) b a))
  infer_instance

/-- A longer path never outranks a shorter one. -/
theorem length_le_of_isLE {a b : Route} (h : (cmp a b).isLE) :
    b.asPath.length ≤ a.asPath.length := by
  by_contra hlt
  have hne : a.asPath.length ≠ b.asPath.length := by omega
  have hcmp : cmp a b = .gt := by
    have hc : compare a.asPath.length b.asPath.length = .lt := by
      rw [Nat.compare_eq_lt]
      omega
    simp [cmp, partialCmp, hne, hc]
  rw [hcmp] at h
  exact Bool.noConfusion h

/-- Between paths of one length the comparison ranks the peers upwards. -/
theorem peer_isLE_of_isLE {a b : Route} (hlen : a.asPath.length = b.asPath.length)
    (h : (cmp a b).isLE) : (a.peer.cmp b.peer).isLE := by
  by_cases hpeer : a.peer = b.peer
  · rw [hpeer, IpAddr.cmp_isLE_iff]
  · simpa [cmp, partialCmp, hlen, hpeer] using h

end Route

structure BestRoute where
  route : Route
deriving DecidableEq

namespace BestRoute

def ofRoute (route : Route) : BestRoute := ⟨route⟩

def calculate (routes : List Route) : Option BestRoute :=
  (lastMax Route.cmp routes).map ofRoute

theorem calculate_eq_some_iff {routes : List Route} {best : BestRoute} :
    calculate routes = some best ↔ lastMax Route.cmp routes = some best.route := by
  constructor
  · intro h
    obtain ⟨route, hroute, rfl⟩ := Option.map_eq_some_iff.mp h
    exact hroute
  · intro h
    exact Option.map_eq_some_iff.mpr ⟨best.route, h, rfl⟩

theorem calculate_eq_none_iff {routes : List Route} : calculate routes = none ↔ routes = [] := by
  rw [calculate, Option.map_eq_none_iff, lastMax_eq_none]

theorem calculate_mem {routes : List Route} {best : BestRoute}
    (h : calculate routes = some best) : best.route ∈ routes :=
  lastMax_mem Route.cmp (calculate_eq_some_iff.mp h)

theorem calculate_isLE {routes : List Route} {best : BestRoute} {route : Route}
    (h : calculate routes = some best) (hroute : route ∈ routes) :
    (route.cmp best.route).isLE :=
  lastMax_isLE Route.cmp (calculate_eq_some_iff.mp h) hroute

theorem exists_calculate {routes : List Route} (h : routes ≠ []) :
    ∃ best, calculate routes = some best := by
  obtain ⟨route, hroute⟩ := exists_lastMax Route.cmp h
  exact ⟨ofRoute route, calculate_eq_some_iff.mpr hroute⟩

/-- Withdrawing a key changes the best route exactly when the best route has that key. -/
theorem calculate_filter_ne_iff {routes : List Route} {key : IpAddr × IpNetwork} :
    calculate (routes.filter (fun x => x.key ≠ key)) ≠ calculate routes ↔
      ∃ best, calculate routes = some best ∧ best.route.key = key := by
  constructor
  · intro hne
    cases hbest : calculate routes with
    | none =>
      rw [calculate_eq_none_iff] at hbest
      subst hbest
      exact absurd rfl hne
    | some best =>
      refine ⟨best, rfl, ?_⟩
      by_contra hkey
      refine hne ?_
      rw [hbest, calculate_eq_some_iff]
      exact lastMax_filter Route.cmp _ (calculate_eq_some_iff.mp hbest) (decide_eq_true hkey)
  · intro hbest heq
    obtain ⟨best, hbest, hkey⟩ := hbest
    rw [hbest] at heq
    have hmem := (List.mem_filter.mp (calculate_mem heq)).2
    exact absurd hkey (of_decide_eq_true hmem)

end BestRoute

end NetfabricBgp.Routes
