import NetfabricBgp.Addresses
import Mathlib.Data.Finmap

/-!
The prefix table of the RIB, taken as a finite map from networks to entries.
The longest match of an address is found by trying the networks around the address
from the longest to the shortest.
-/
namespace NetfabricBgp.NetworkTables

open BitPrefix Addresses

abbrev IpNetworkTable (α : Type) := Finmap (fun _ : IpNetwork => α)

namespace IpNetworkTable

variable {α : Type}

def exactMatch (table : IpNetworkTable α) (network : IpNetwork) : Option α :=
  table.lookup network

def longestMatch (table : IpNetworkTable α) (address : IpAddr) : Option (IpNetwork × α) :=
  address.networks.findSome? (fun network => (table.lookup network).map (network, ·))

/-- The numbers of stored IPv4 and IPv6 networks. -/
def len (table : IpNetworkTable α) : ℕ × ℕ :=
  ((table.keys.filter (fun network => network.isIpv4 = true)).card,
    (table.keys.filter (fun network => network.isIpv6 = true)).card)

theorem exactMatch_insert (table : IpNetworkTable α) (network other : IpNetwork) (entry : α) :
    exactMatch (table.insert network entry) other =
      if other = network then some entry else exactMatch table other := by
  unfold exactMatch
  by_cases h : other = network
  · subst h
    rw [if_pos rfl, Finmap.lookup_insert]
  · rw [if_neg h, Finmap.lookup_insert_of_ne _ h]

/-- Storing what is stored already changes nothing. -/
theorem insert_of_exactMatch {table : IpNetworkTable α} {network : IpNetwork} {entry : α}
    (h : exactMatch table network = some entry) : table.insert network entry = table := by
  apply Finmap.ext_lookup
  intro other
  refine (exactMatch_insert table network other entry).trans ?_
  by_cases hn : other = network
  · rw [if_pos hn, hn]
    exact h.symm
  · rw [if_neg hn]
    rfl

theorem exactMatch_erase (table : IpNetworkTable α) (network other : IpNetwork) :
    exactMatch (table.erase network) other =
      if other = network then none else exactMatch table other := by
  unfold exactMatch
  by_cases h : other = network
  · subst h
    rw [if_pos rfl, Finmap.lookup_erase]
  · rw [if_neg h, Finmap.lookup_erase_ne h]

/-- The entries of an iteration inserted one by one into a new table. -/
def insertAll (entries : List (Sigma fun _ : IpNetwork => α)) (table : IpNetworkTable α) :
    IpNetworkTable α :=
  entries.foldl (fun table entry => table.insert entry.1 entry.2) table

theorem lookup_insertAll {entries : List (Sigma fun _ : IpNetwork => α)}
    (hkeys : entries.NodupKeys) (table : IpNetworkTable α) (network : IpNetwork) :
    (insertAll entries table).lookup network =
      (entries.dlookup network).or (table.lookup network) := by
  induction entries generalizing table with
  | nil => simp [insertAll]
  | cons entry rest ih =>
    obtain ⟨key, value⟩ := entry
    obtain ⟨hfresh, hrest⟩ := List.nodupKeys_cons.mp hkeys
    refine (ih hrest (table.insert key value)).trans ?_
    by_cases hn : network = key
    · subst hn
      rw [List.dlookup_eq_none.mpr hfresh, List.dlookup_cons_eq, Finmap.lookup_insert]
      rfl
    · rw [List.dlookup_cons_ne _ _ hn, Finmap.lookup_insert_of_ne _ hn]

/-- The table rebuilt entry by entry; the order in which the entries come does not matter. -/
def copy (table : IpNetworkTable α) : IpNetworkTable α :=
  table.liftOn (fun list => insertAll list.entries ∅) (fun list list' hperm => by
    apply Finmap.ext_lookup
    intro network
    rw [lookup_insertAll list.nodupKeys, lookup_insertAll list'.nodupKeys,
      List.perm_dlookup network list.nodupKeys hperm])

theorem copy_eq (table : IpNetworkTable α) : copy table = table := by
  induction table using Finmap.induction_on with
  | _ list =>
    apply Finmap.ext_lookup
    intro network
    show (insertAll list.entries ∅).lookup network = _
    rw [lookup_insertAll list.nodupKeys, Finmap.lookup_empty, Option.or_none]
    rfl

/-- The entries of a table in some order. -/
structure Iteration (table : IpNetworkTable α) where
  list : AList (fun _ : IpNetwork => α)
  lists : list.toFinmap = table

/-- Every table can be iterated. -/
theorem exists_iteration (table : IpNetworkTable α) : Nonempty (Iteration table) := by
  induction table using Finmap.induction_on with
  | _ list => exact ⟨⟨list, rfl⟩⟩

section Iterations
variable {table : IpNetworkTable α} (iteration : Iteration table)

theorem Iteration.mem_iff {network : IpNetwork} {entry : α} :
    ⟨network, entry⟩ ∈ iteration.list.entries ↔ exactMatch table network = some entry := by
  obtain ⟨list, rfl⟩ := iteration
  exact (List.mem_dlookup_iff list.nodupKeys).symm

theorem insertAll_iteration : insertAll iteration.list.entries ∅ = table := by
  obtain ⟨list, rfl⟩ := iteration
  exact copy_eq list.toFinmap

end Iterations

/-- The match is stored, contains the address, and no stored network that contains the
address is longer. -/
theorem longestMatch_some {table : IpNetworkTable α} {address : IpAddr} {network : IpNetwork}
    {entry : α} (h : longestMatch table address = some (network, entry)) :
    exactMatch table network = some entry ∧ network.contains address = true ∧
      ∀ other, (exactMatch table other).isSome → other.contains address = true →
        other.netmask ≤ network.netmask := by
  obtain ⟨n, hn, hhit, hmax⟩ := findSome_highest IpNetwork.netmask
    address.networks_pairwise h
  obtain ⟨e, he, heq⟩ := Option.map_eq_some_iff.mp hhit
  obtain ⟨rfl, rfl⟩ := Prod.mk.inj heq
  refine ⟨he, IpAddr.mem_networks.mp hn, ?_⟩
  intro other hstored hcontains
  apply hmax other (IpAddr.mem_networks.mpr hcontains)
  simpa [exactMatch] using hstored

theorem longestMatch_none {table : IpNetworkTable α} {address : IpAddr}
    (h : longestMatch table address = none) {network : IpNetwork}
    (hcontains : network.contains address = true) : exactMatch table network = none := by
  have hmiss := List.findSome?_eq_none_iff.mp h network (IpAddr.mem_networks.mpr hcontains)
  simpa [exactMatch] using hmiss

end IpNetworkTable

end NetfabricBgp.NetworkTables
