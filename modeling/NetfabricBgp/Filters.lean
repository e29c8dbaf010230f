import NetfabricBgp.Interfaces

/-!
The filter with which a router refuses advertisements whose path already leads through
its own autonomous system, and the filter on routes that is named after a blacklist. An
advertisement without a path passes the first. The second decides whether two networks
overlap, and lets the overlapping routes through instead of the others.
-/
namespace NetfabricBgp.Filters

open Addresses Routes Advertisements Interfaces

structure OwnASFilter where
  asn : UInt64

namespace OwnASFilter

def new (asn : UInt64) : OwnASFilter := ⟨asn⟩

/-- The element is the filter's own number, or a set with that number in it. -/
def mentions (self : OwnASFilter) : PathElement → Bool
  | .ASN asn => asn = self.asn
  | .ASSet path => path.any (· = self.asn)

def filter (self : OwnASFilter) : Interfaces.Filter Advertisement := fun ad =>
  match ad.path with
  | some path => if path.any self.mentions then (false, ad) else (true, ad)
  | none => (true, ad)

theorem filter_of_path_none (self : OwnASFilter) {ad : Advertisement} (h : ad.path = none) :
    self.filter ad = (true, ad) := by
  rw [filter, h]

/-- The filter rejects exactly the paths that lead through its own system. -/
theorem filter_eq_false_iff (self : OwnASFilter) (ad : Advertisement) :
    (self.filter ad).1 = false ↔ ∃ path, ad.path = some path ∧ path.any self.mentions = true := by
  rw [filter]
  cases hpath : ad.path with
  | none => simp
  | some path =>
    simp only [Option.some.injEq, exists_eq_left']
    cases path.any self.mentions <;> simp

end OwnASFilter

structure IpNetworkBlacklistFilter where
  ipNetwork : IpNetwork

/-- Some address belongs to both networks. -/
def Overlaps (network other : IpNetwork) : Prop :=
  ∃ a, network.contains a = true ∧ other.contains a = true

theorem overlaps_comm {network other : IpNetwork} :
    Overlaps network other ↔ Overlaps other network := by
  unfold Overlaps
  simp only [and_comm]

namespace IpNetworkBlacklistFilter

def new (ipNetwork : IpNetwork) : IpNetworkBlacklistFilter := ⟨ipNetwork⟩

/-- The network with the shorter prefix is asked for the base address of the other one. -/
def filter (self : IpNetworkBlacklistFilter) : Interfaces.Filter Route := fun route =>
  if self.ipNetwork.netmask ≤ route.pfx.netmask then
    (self.ipNetwork.contains route.pfx.networkAddress, route)
  else (route.pfx.contains self.ipNetwork.networkAddress, route)

/-- The filter lets through exactly the routes that overlap with its network. -/
theorem filter_eq_true_iff (self : IpNetworkBlacklistFilter) (route : Route) :
    (self.filter route).1 = true ↔ Overlaps self.ipNetwork route.pfx := by
  unfold filter
  by_cases h : self.ipNetwork.netmask ≤ route.pfx.netmask
  · rw [if_pos h, Overlaps, IpNetwork.exists_contains_both_iff h]
  · have hle : route.pfx.netmask ≤ self.ipNetwork.netmask := by omega
    rw [if_neg h, overlaps_comm, Overlaps, IpNetwork.exists_contains_both_iff hle]

end IpNetworkBlacklistFilter

/-- For every network and every route the answer is the opposite of what a blacklist asks for:
the overlapping routes pass the filter, and the others are rejected. -/
theorem blacklist_inverted (network : IpNetwork) (route : Route) :
    (((IpNetworkBlacklistFilter.new network).filter route).1 = true ↔
        Overlaps network route.pfx) ∧
      ¬ (((IpNetworkBlacklistFilter.new network).filter route).1 = false ↔
        Overlaps network route.pfx) := by
  have hpasses := (IpNetworkBlacklistFilter.new network).filter_eq_true_iff route
  refine ⟨hpasses, ?_⟩
  intro hrejects
  have hboth := hrejects.trans hpasses.symm
  cases hanswer : ((IpNetworkBlacklistFilter.new network).filter route).1 <;>
    simp [hanswer] at hboth

/-- A route to the blacklisted network itself passes the filter. -/
theorem blacklist_passes_own :
    ((IpNetworkBlacklistFilter.new (Route.sample 1 8 "10.0.0.1" [65001]).pfx).filter
        (.sample 1 8 "10.0.0.1" [65001])).1 = true ∧
      ¬ (((IpNetworkBlacklistFilter.new (Route.sample 1 8 "10.0.0.1" [65001]).pfx).filter
          (.sample 1 8 "10.0.0.1" [65001])).1 = false ↔
        Overlaps (Route.sample 1 8 "10.0.0.1" [65001]).pfx
          (Route.sample 1 8 "10.0.0.1" [65001]).pfx) := by
  have hpasses : ((IpNetworkBlacklistFilter.new (Route.sample 1 8 "10.0.0.1" [65001]).pfx).filter
      (.sample 1 8 "10.0.0.1" [65001])).1 = true := by decide
  have hoverlap := ((IpNetworkBlacklistFilter.new
    (Route.sample 1 8 "10.0.0.1" [65001]).pfx).filter_eq_true_iff _).mp hpasses
  refine ⟨hpasses, ?_⟩
  intro h
  have hrejects := h.mpr hoverlap
  rw [hpasses] at hrejects
  cases hrejects

end NetfabricBgp.Filters
