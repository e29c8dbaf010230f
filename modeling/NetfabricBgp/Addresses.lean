import Mathlib.Algebra.Group.Nat.Defs
import NetfabricBgp.BitPrefix

/-!
IP addresses and networks. A network is a block of 32-bit or 128-bit addresses, and
carries the proof that its host bits are clear. Addresses are ordered as the derived
order of the two variants: every IPv4 address comes before every IPv6 address.
-/
namespace NetfabricBgp.Addresses

open BitPrefix

inductive IpAddr
  | V4 (bits : BitVec 32)
  | V6 (bits : BitVec 128)
deriving DecidableEq

namespace IpAddr

def cmp : IpAddr → IpAddr → Ordering
  | .V4 a, .V4 b => compare a.toNat b.toNat
  | .V4 _, .V6 _ => .lt
  | .V6 _, .V4 _ => .gt
  | .V6 a, .V6 b => compare a.toNat b.toNat

/-- The position of an address in the order of all addresses. -/
def position : IpAddr → ℕ
  | .V4 a => a.toNat
  | .V6 a => 2 ^ 32 + a.toNat

theorem cmp_eq_compare_position (a b : IpAddr) :
    a.cmp b = compare a.position b.position := by
  cases a with
  | V4 x =>
    cases b with
    | V4 y => rfl
    | V6 y =>
      have hx : x.toNat < 2 ^ 32 + y.toNat := by
        have := x.isLt
        omega
      exact (Nat.compare_eq_lt.mpr hx).symm
  | V6 x =>
    cases b with
    | V4 y =>
      have hy : y.toNat < 2 ^ 32 + x.toNat := by
        have := y.isLt
        omega
      exact (Nat.compare_eq_gt.mpr hy).symm
    | V6 y =>
      simp only [cmp, position, Nat.compare_eq_ite_lt]
      simp

theorem position_injective : Function.Injective position := by
  intro a b h
  cases a with
  | V4 x =>
    cases b with
    | V4 y => exact congrArg V4 (BitVec.eq_of_toNat_eq h)
    | V6 y =>
      have := x.isLt
      simp only [position] at h
      omega
  | V6 x =>
    cases b with
    | V4 y =>
      have := y.isLt
      simp only [position] at h
      omega
    | V6 y =>
      simp only [position, Nat.add_left_cancel_iff] at h
      exact congrArg V6 (BitVec.eq_of_toNat_eq h)

theorem cmp_isLE_iff {a b : IpAddr} : (a.cmp b).isLE ↔ a.position ≤ b.position := by
  rw [cmp_eq_compare_position, Nat.isLE_compare]

theorem eq_of_cmp_isLE {a b : IpAddr} (hab : (a.cmp b).isLE) (hba : (b.cmp a).isLE) : a = b := by
  rw [cmp_isLE_iff] at hab hba
  apply position_injective
  omega

end IpAddr

inductive IpNetwork
  | V4 (block : Block 32)
  | V6 (block : Block 128)
deriving DecidableEq

namespace IpNetwork

def isIpv4 : IpNetwork → Bool
  | .V4 _ => true
  | .V6 _ => false

def isIpv6 : IpNetwork → Bool
  | .V4 _ => false
  | .V6 _ => true

/-- The number of leading bits that are fixed. -/
def netmask : IpNetwork → ℕ
  | .V4 block => block.length
  | .V6 block => block.length

def contains : IpNetwork → IpAddr → Bool
  | .V4 block, .V4 a => block.contains a
  | .V6 block, .V6 a => block.contains a
  | _, _ => false

/-- The lowest address of a network, with all its host bits clear. -/
def networkAddress : IpNetwork → IpAddr
  | .V4 block => .V4 block.address
  | .V6 block => .V6 block.address

/-- Networks of different families have no address in common. -/
theorem exists_contains_both_iff {m n : IpNetwork} (h : m.netmask ≤ n.netmask) :
    (∃ a, m.contains a = true ∧ n.contains a = true) ↔
      m.contains n.networkAddress = true := by
  constructor
  · intro hboth
    obtain ⟨a, hm, hn⟩ := hboth
    cases a <;> cases m <;> cases n <;> simp only [contains, Bool.false_eq_true] at hm hn
    · exact (Block.exists_contains_both_iff h).mp ⟨_, hm, hn⟩
    · exact (Block.exists_contains_both_iff h).mp ⟨_, hm, hn⟩
  · intro hm
    refine ⟨n.networkAddress, hm, ?_⟩
    cases n with
    | V4 block => exact block.contains_address
    | V6 block => exact block.contains_address

end IpNetwork

/-- The networks that contain an address, the longest first. -/
def IpAddr.networks : IpAddr → List IpNetwork
  | .V4 a => (Block.blocksAround a).map .V4
  | .V6 a => (Block.blocksAround a).map .V6

theorem IpAddr.mem_networks {a : IpAddr} {n : IpNetwork} :
    n ∈ a.networks ↔ n.contains a = true := by
  cases a <;> cases n <;>
    simp [IpAddr.networks, IpNetwork.contains, Block.mem_blocksAround]

theorem IpAddr.networks_pairwise (a : IpAddr) :
    a.networks.Pairwise (fun m n => n.netmask < m.netmask) := by
  cases a with
  | V4 x => exact List.pairwise_map.mpr (Block.blocksAround_pairwise x)
  | V6 x => exact List.pairwise_map.mpr (Block.blocksAround_pairwise x)

theorem IpNetwork.exists_contains (n : IpNetwork) : ∃ a, n.contains a = true := by
  cases n with
  | V4 block => exact ⟨.V4 block.address, block.contains_address⟩
  | V6 block => exact ⟨.V6 block.address, block.contains_address⟩

/-- Two networks of one length around one address are the same network. -/
theorem IpNetwork.eq_of_contains {m n : IpNetwork} {a : IpAddr} (hm : m.contains a = true)
    (hn : n.contains a = true) (hlen : m.netmask = n.netmask) : m = n := by
  cases a <;> cases m <;> cases n <;> simp only [IpNetwork.contains, Bool.false_eq_true] at hm hn
  · exact congrArg IpNetwork.V4 (Block.eq_of_contains hm hn hlen)
  · exact congrArg IpNetwork.V6 (Block.eq_of_contains hm hn hlen)

end NetfabricBgp.Addresses
