import Mathlib.Data.List.Basic
import Mathlib.Data.Nat.Basic
import Mathlib.Data.List.Pairwise
import Mathlib.Data.List.Range

/-!
Address blocks fixed by their leading bits. A block carries the proof that its
trailing bits are clear, so a block is determined by its length and any address in
it. Hence the blocks around an address form one list, longest first, and a search
down that list is a longest-match lookup.
-/
namespace NetfabricBgp.BitPrefix

/-- Clear all but the leading `n` bits. -/
def keepTop {w : ℕ} (n : ℕ) (a : BitVec w) : BitVec w :=
  a &&& (BitVec.allOnes w <<< (w - n))

theorem keepTop_keepTop {w : ℕ} (n : ℕ) (a : BitVec w) :
    keepTop n (keepTop n a) = keepTop n a := by
  rw [keepTop, keepTop, BitVec.and_assoc, BitVec.and_self]

/-- Clearing fewer bits first makes no difference. -/
theorem keepTop_keepTop_of_le {w m n : ℕ} (h : m ≤ n) (a : BitVec w) :
    keepTop m (keepTop n a) = keepTop m a := by
  unfold keepTop
  apply BitVec.eq_of_getLsbD_eq
  intro i hi
  simp only [BitVec.getLsbD_and, BitVec.getLsbD_shiftLeft, BitVec.getLsbD_allOnes]
  by_cases hm : i < w - m
  · simp [hm]
  · have hn : ¬ i < w - n := by omega
    have hshift : i - (w - n) < w := by omega
    simp [hi, hm, hn, hshift]

@[ext] structure Block (w : ℕ) where
  address : BitVec w
  length : ℕ
  length_le : length ≤ w
  masked : keepTop length address = address
deriving DecidableEq

namespace Block

variable {w : ℕ}

def contains (p : Block w) (a : BitVec w) : Bool := keepTop p.length a = p.address

/-- The block of length `n` around `a`; lengths beyond the width are cut to it. -/
def around (a : BitVec w) (n : ℕ) : Block w where
  address := keepTop (min n w) a
  length := min n w
  length_le := Nat.min_le_right n w
  masked := keepTop_keepTop (min n w) a

theorem around_contains (a : BitVec w) (n : ℕ) : (around a n).contains a = true := by
  simp [contains, around]

theorem contains_address (p : Block w) : p.contains p.address = true := decide_eq_true p.masked

theorem eq_around_of_contains {p : Block w} {a : BitVec w} (h : p.contains a = true) :
    p = around a p.length := by
  have hmin : min p.length w = p.length := Nat.min_eq_left p.length_le
  have haddr : keepTop p.length a = p.address := of_decide_eq_true h
  ext1
  · simp only [around, hmin, haddr]
  · simp only [around, hmin]

theorem eq_of_contains {p q : Block w} {a : BitVec w} (hp : p.contains a = true)
    (hq : q.contains a = true) (hlen : p.length = q.length) : p = q := by
  rw [eq_around_of_contains hp, eq_around_of_contains hq, hlen]

/-- Two blocks have an address in common exactly when the shorter prefix contains the base
address of the longer one. -/
theorem exists_contains_both_iff {p q : Block w} (h : p.length ≤ q.length) :
    (∃ a, p.contains a = true ∧ q.contains a = true) ↔ p.contains q.address = true := by
  constructor
  · intro hboth
    obtain ⟨a, hp, hq⟩ := hboth
    have hpa : keepTop p.length a = p.address := of_decide_eq_true hp
    have hqa : keepTop q.length a = q.address := of_decide_eq_true hq
    apply decide_eq_true
    rw [← hqa, keepTop_keepTop_of_le h, hpa]
  · intro hp
    exact ⟨q.address, hp, q.contains_address⟩

/-- All blocks around an address, the longest first. -/
def blocksAround (a : BitVec w) : List (Block w) :=
  (List.range (w + 1)).reverse.map (around a)

theorem mem_blocksAround {p : Block w} {a : BitVec w} :
    p ∈ blocksAround a ↔ p.contains a = true := by
  constructor
  · intro h
    obtain ⟨n, -, rfl⟩ := List.mem_map.mp h
    exact around_contains a n
  · intro h
    have hle := p.length_le
    refine List.mem_map.mpr ⟨p.length, ?_, (eq_around_of_contains h).symm⟩
    simp only [List.mem_reverse, List.mem_range]
    omega

theorem blocksAround_pairwise (a : BitVec w) :
    (blocksAround a).Pairwise (fun p q => q.length < p.length) := by
  rw [blocksAround, List.pairwise_map, List.pairwise_reverse]
  refine List.Pairwise.imp_of_mem ?_ List.pairwise_lt_range
  intro m n hm hn hlt
  simp only [List.mem_range] at hm hn
  simp only [around]
  omega

end Block

section Search
variable {κ β : Type*}

/-- The first hit of a search down a strictly decreasing list is the highest hit. -/
theorem findSome_highest {keys : List κ} (rank : κ → ℕ) {f : κ → Option β}
    (hdesc : keys.Pairwise (fun x y => rank y < rank x)) {b : β}
    (h : keys.findSome? f = some b) :
    ∃ x ∈ keys, f x = some b ∧ ∀ y ∈ keys, (f y).isSome → rank y ≤ rank x := by
  obtain ⟨before, x, after, hkeys, hx, hbefore⟩ := List.findSome?_eq_some_iff.mp h
  subst hkeys
  refine ⟨x, by simp, hx, ?_⟩
  intro y hy hsome
  rcases List.mem_append.mp hy with hy | hy
  · rw [hbefore y hy] at hsome
    exact Bool.noConfusion hsome
  · rcases List.mem_cons.mp hy with rfl | hy
    · exact Nat.le_refl _
    · have htail := (List.pairwise_append.mp hdesc).2.1
      exact Nat.le_of_lt ((List.pairwise_cons.mp htail).1 y hy)

end Search

end NetfabricBgp.BitPrefix
