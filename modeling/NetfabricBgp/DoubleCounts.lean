import Mathlib.Algebra.BigOperators.Group.Finset.Piecewise
import Mathlib.Algebra.Ring.Nat

/-!
Counting the same pairs twice: what each of several observers sees in a list, and by how many
observers each element of the list is seen.
-/
namespace NetfabricBgp.DoubleCounts

variable {ι α : Type*}

/-- The pairs of an observer and an element it sees, by observers and by elements. -/
theorem sum_length_filter (observers : Finset ι) (sees : ι → α → Bool) (l : List α) :
    ∑ i ∈ observers, (l.filter (sees i)).length =
      (l.map (fun a => (observers.filter (fun i => sees i a = true)).card)).sum := by
  induction l with
  | nil => simp
  | cons a rest ih =>
    have hcons : ∀ i, ((a :: rest).filter (sees i)).length =
        (if sees i a = true then 1 else 0) + (rest.filter (sees i)).length := by
      intro i
      by_cases h : sees i a = true
      · rw [List.filter_cons_of_pos h, List.length_cons, if_pos h, Nat.add_comm]
      · rw [List.filter_cons_of_neg h, if_neg h, Nat.zero_add]
    rw [Finset.sum_congr rfl (fun i _ => hcons i), Finset.sum_add_distrib, ih,
      ← Finset.card_filter, List.map_cons, List.sum_cons]

section Positive
variable {l : List α} {f : α → ℕ}

theorem length_le_sum (h : ∀ a ∈ l, 1 ≤ f a) : l.length ≤ (l.map f).sum := by
  induction l with
  | nil => simp
  | cons a rest ih =>
    have ha := h a List.mem_cons_self
    have hrest := ih (fun b hb => h b (List.mem_cons_of_mem a hb))
    rw [List.length_cons, List.map_cons, List.sum_cons]
    omega

/-- Positive numbers add up to how many they are only if all of them are one. -/
theorem sum_eq_length_iff (h : ∀ a ∈ l, 1 ≤ f a) :
    (l.map f).sum = l.length ↔ ∀ a ∈ l, f a = 1 := by
  induction l with
  | nil => simp
  | cons a rest ih =>
    have ha := h a List.mem_cons_self
    have hrest := fun b hb => h b (List.mem_cons_of_mem a hb)
    have hle := length_le_sum hrest
    rw [List.length_cons, List.map_cons, List.sum_cons, List.forall_mem_cons, ← ih hrest]
    omega

end Positive

end NetfabricBgp.DoubleCounts
