import Mathlib.Data.List.Basic
import Mathlib.Data.Nat.Basic
import Mathlib.Data.Finset.Card
import Mathlib.Data.Finset.Range

/-!
Sets of small numbers held as the bits of a word, one bit a member.
The operations used on such words (test, add, delete, find a free member) are
described by the bits of their result, and a one-bit word by its single position.
-/
namespace NetfabricBgp.MaskBits

variable {w : ℕ}

theorem getLsbD_oneBit (i j : ℕ) :
    (1#w <<< i).getLsbD j = (decide (i < w) && decide (i = j)) := by
  rw [← BitVec.twoPow_eq, BitVec.getLsbD_twoPow]

theorem getLsbD_or_oneBit (x : BitVec w) {i j : ℕ} (hi : i < w) :
    (x ||| 1#w <<< i).getLsbD j = (x.getLsbD j || decide (i = j)) := by
  rw [BitVec.getLsbD_or, getLsbD_oneBit]
  simp [hi]

theorem getLsbD_and_not_oneBit (x : BitVec w) {i j : ℕ} (hi : i < w) :
    (x &&& ~~~(1#w <<< i)).getLsbD j = (x.getLsbD j && !decide (i = j)) := by
  by_cases hj : j < w
  · rw [BitVec.getLsbD_and, BitVec.getLsbD_not, getLsbD_oneBit]
    simp [hi, hj]
  · simp [BitVec.getLsbD_of_ge x j (by omega)]

/-- Toggling a bit that is set clears it and touches no other bit. -/
theorem getLsbD_xor_oneBit {x : BitVec w} {i : ℕ} (hx : x.getLsbD i = true) (j : ℕ) :
    (x ^^^ 1#w <<< i).getLsbD j = (x.getLsbD j && !decide (i = j)) := by
  have hi : i < w := BitVec.lt_of_getLsbD hx
  rw [BitVec.getLsbD_xor, getLsbD_oneBit]
  by_cases hij : i = j
  · subst hij
    simp [hi, hx]
  · simp [hij]

theorem and_oneBit (x : BitVec w) (i : ℕ) :
    x &&& 1#w <<< i = if x.getLsbD i = true then 1#w <<< i else 0#w := by
  rw [← BitVec.twoPow_eq, BitVec.and_twoPow]

theorem oneBit_ne_zero {i : ℕ} (hi : i < w) : 1#w <<< i ≠ 0#w := by
  intro h
  have hbit := congrArg (fun x : BitVec w => x.getLsbD i) h
  simp [hi] at hbit

theorem oneBit_injective {i j : ℕ} (hi : i < w) (h : 1#w <<< i = 1#w <<< j) : i = j := by
  have hbit := congrArg (fun x : BitVec w => x.getLsbD i) h
  simp only [getLsbD_oneBit, hi, decide_true, Bool.and_self] at hbit
  have hji := (Bool.and_eq_true _ _).mp hbit.symm
  exact (of_decide_eq_true hji.2).symm

theorem and_oneBit_eq_self_iff (x : BitVec w) {i : ℕ} (hi : i < w) :
    x &&& 1#w <<< i = 1#w <<< i ↔ x.getLsbD i = true := by
  rw [and_oneBit]
  by_cases hx : x.getLsbD i = true
  · simp [hx]
  · simp [hx, (oneBit_ne_zero hi).symm]

theorem and_oneBit_eq_zero_iff (x : BitVec w) {i : ℕ} (hi : i < w) :
    x &&& 1#w <<< i = 0#w ↔ x.getLsbD i = false := by
  rw [and_oneBit]
  by_cases hx : x.getLsbD i = true
  · simp [hx, oneBit_ne_zero hi]
  · simp [hx]

theorem or_oneBit_of_getLsbD {x : BitVec w} {i : ℕ} (hx : x.getLsbD i = true) :
    x ||| 1#w <<< i = x := by
  apply BitVec.eq_of_getLsbD_eq
  intro j hj
  rw [BitVec.getLsbD_or, getLsbD_oneBit]
  by_cases hij : i = j
  · subst hij
    simp [hx]
  · simp [hij]

theorem exists_bit_of_ne_zero {x : BitVec w} (hx : x ≠ 0#w) : ∃ i, i < w ∧ x.getLsbD i = true := by
  by_contra hn
  apply hx
  apply BitVec.eq_of_getLsbD_eq
  intro i hi
  by_contra hne
  have hbit : x.getLsbD i = true := by simpa using hne
  exact hn ⟨i, hi, hbit⟩

/-- A word holding bit `i` and no other bit is the one-bit word. -/
theorem eq_oneBit_of_bits {x : BitVec w} {i : ℕ} (hi : i < w)
    (h : ∀ j, x.getLsbD j = true ↔ i = j) : x = 1#w <<< i := by
  apply BitVec.eq_of_getLsbD_eq
  intro j hj
  rw [getLsbD_oneBit, Bool.eq_iff_iff, h j]
  simp [hi]

section Free

/-- The lowest position whose bit is clear. -/
def lowestFree (used : BitVec w) : Option ℕ :=
  (List.range w).find? (fun bit => used &&& 1#w <<< bit = 0#w)

theorem lowestFree_some {used : BitVec w} {i : ℕ} (h : lowestFree used = some i) :
    i < w ∧ used.getLsbD i = false := by
  have hi : i < w := List.mem_range.mp (List.mem_of_find?_eq_some h)
  have hzero : decide (used &&& 1#w <<< i = 0#w) = true :=
    List.find?_some (p := fun bit => decide (used &&& 1#w <<< bit = 0#w)) h
  exact ⟨hi, (and_oneBit_eq_zero_iff used hi).mp (of_decide_eq_true hzero)⟩

theorem lowestFree_none {used : BitVec w} (h : lowestFree used = none) :
    used = BitVec.allOnes w := by
  apply BitVec.eq_of_getLsbD_eq
  intro i hi
  have hne := List.find?_eq_none.mp h i (List.mem_range.mpr hi)
  simp only [decide_eq_true_eq, and_oneBit_eq_zero_iff used hi, Bool.not_eq_false] at hne
  simp [hne, hi]

end Free

section Counting

/-- The number of set bits is the number of positions with a set bit. -/
theorem toNat_cpop_eq_card (x : BitVec w) :
    x.cpop.toNat = ((Finset.range w).filter (fun i => x.getLsbD i = true)).card := by
  have hcount : ∀ n, x.cpopNatRec n 0 =
      ((Finset.range n).filter (fun i => x.getLsbD i = true)).card := by
    intro n
    induction n with
    | zero => rfl
    | succ n ih =>
      rw [BitVec.cpopNatRec_succ, BitVec.cpopNatRec_add, ih, Finset.range_add_one,
        Finset.filter_insert]
      by_cases hn : x.getLsbD n = true
      · rw [if_pos hn, Finset.card_insert_of_notMem (by simp), hn]
        simp [Nat.add_comm]
      · rw [if_neg hn]
        simp [hn]
  rw [BitVec.toNat_cpop]
  exact hcount w

end Counting

end NetfabricBgp.MaskBits
