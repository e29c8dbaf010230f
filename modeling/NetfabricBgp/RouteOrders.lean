import NetfabricBgp.Routes

/-!
The comparison of routes against the laws of a total order. Routes with paths of one length
from one peer tie: `partialCmp` has no answer for them, not even for a route and itself, `cmp`
takes them as equal, and equality looks at all fields. Everywhere else the laws hold.
-/
namespace NetfabricBgp.RouteOrders

open Addresses Routes

/-- Neither of the two comparisons tells the routes apart. -/
def Tied (a b : Route) : Prop := a.asPath.length = b.asPath.length ∧ a.peer = b.peer

/-- What the contracts of ordered types ask of the comparisons of three routes. -/
structure LawfulAt (a b c : Route) : Prop where
  agree : a.partialCmp b = some (a.cmp b)
  eq_iff : a.cmp b = .eq ↔ a = b
  reverse : b.cmp a = (a.cmp b).swap
  trans : ∀ ordering, a.cmp b = ordering → b.cmp c = ordering → a.cmp c = ordering

section Comparisons
variable {a b : Route}

theorem tied_refl (a : Route) : Tied a a := ⟨rfl, rfl⟩

theorem partialCmp_of_tied (h : Tied a b) : a.partialCmp b = none := by
  simp [Route.partialCmp, h.1, h.2]

/-- Where the partial comparison answers, it does not answer that the routes are equal. -/
theorem exists_partialCmp (h : ¬ Tied a b) :
    ∃ ordering, a.partialCmp b = some ordering ∧ ordering ≠ .eq := by
  unfold Route.partialCmp
  by_cases hlen : a.asPath.length = b.asPath.length
  · have hpeer : a.peer ≠ b.peer := fun hpeer => h ⟨hlen, hpeer⟩
    refine ⟨a.peer.cmp b.peer, by simp [hlen, hpeer], ?_⟩
    intro heq
    rw [IpAddr.cmp_eq_compare_position, Nat.compare_eq_eq] at heq
    exact hpeer (IpAddr.position_injective heq)
  · refine ⟨(compare a.asPath.length b.asPath.length).swap, by simp [hlen], ?_⟩
    intro heq
    rw [Ordering.swap_eq_eq, Nat.compare_eq_eq] at heq
    exact hlen heq

theorem cmp_of_partialCmp {ordering : Ordering} (h : a.partialCmp b = some ordering) :
    a.cmp b = ordering := by
  rw [Route.cmp, h]

theorem cmp_eq_iff_tied : a.cmp b = .eq ↔ Tied a b := by
  by_cases h : Tied a b
  · rw [Route.cmp, partialCmp_of_tied h]
    exact iff_of_true rfl h
  · obtain ⟨ordering, hsome, hne⟩ := exists_partialCmp h
    rw [cmp_of_partialCmp hsome]
    exact iff_of_false hne h

/-- The two comparisons agree exactly where they tell the routes apart. -/
theorem agree_iff : a.partialCmp b = some (a.cmp b) ↔ ¬ Tied a b := by
  constructor
  · intro hagree htied
    rw [partialCmp_of_tied htied] at hagree
    cases hagree
  · intro h
    obtain ⟨ordering, hsome, -⟩ := exists_partialCmp h
    rw [cmp_of_partialCmp hsome, hsome]

/-- The comparison answers that routes are equal just when they are, except for tied routes
that differ in another field. -/
theorem eq_law_iff : (a.cmp b = .eq ↔ a = b) ↔ ¬ Tied a b ∨ a = b := by
  rw [cmp_eq_iff_tied]
  constructor
  · intro hlaw
    by_cases h : Tied a b
    · exact Or.inr (hlaw.mp h)
    · exact Or.inl h
  · intro hcond
    rcases hcond with h | rfl
    · exact iff_of_false h (fun heq => h (heq ▸ tied_refl a))
    · exact iff_of_true (tied_refl a) rfl

theorem cmp_trans {c : Route} {ordering : Ordering} (hab : a.cmp b = ordering)
    (hbc : b.cmp c = ordering) : a.cmp c = ordering := by
  cases ordering with
  | lt => exact Std.TransCmp.lt_trans hab hbc
  | eq => exact Std.TransCmp.eq_trans hab hbc
  | gt => exact Std.TransCmp.gt_trans hab hbc

end Comparisons

/-- For all routes the laws hold exactly when the first two have paths of different lengths or
different peers; the reversed comparison and transitivity are never at fault. -/
theorem lawfulAt_iff (a b c : Route) :
    (LawfulAt a b c ↔ a.asPath.length ≠ b.asPath.length ∨ a.peer ≠ b.peer) ∧
      b.cmp a = (a.cmp b).swap ∧
      ∀ ordering, a.cmp b = ordering → b.cmp c = ordering → a.cmp c = ordering := by
  have hreverse : b.cmp a = (a.cmp b).swap := Std.OrientedCmp.eq_swap
  have htied : ¬ Tied a b ↔ a.asPath.length ≠ b.asPath.length ∨ a.peer ≠ b.peer :=
    Classical.not_and_iff_not_or_not
  refine ⟨?_, hreverse, fun _ => cmp_trans⟩
  rw [← htied]
  constructor
  · intro hlaws
    exact agree_iff.mp hlaws.agree
  · intro h
    exact ⟨agree_iff.mpr h, eq_law_iff.mpr (Or.inl h), hreverse, fun _ => cmp_trans⟩

/-- Two routes of one peer through different neighbours tie, and so does a route with itself. -/
theorem not_lawfulAt_tied :
    (Route.sample 1 8 "10.0.0.1" [65001]).partialCmp (.sample 1 8 "10.0.0.2" [65002]) = none ∧
      (Route.sample 1 8 "10.0.0.1" [65001]).cmp (.sample 1 8 "10.0.0.2" [65002]) = .eq ∧
      Route.sample 1 8 "10.0.0.1" [65001] ≠ .sample 1 8 "10.0.0.2" [65002] ∧
      (Route.sample 1 8 "10.0.0.1" [65001]).partialCmp (.sample 1 8 "10.0.0.1" [65001]) = none ∧
      ¬ LawfulAt (.sample 1 8 "10.0.0.1" [65001]) (.sample 1 8 "10.0.0.2" [65002])
        (.sample 1 8 "10.0.0.1" [65001]) := by
  refine ⟨rfl, rfl, by decide, rfl, ?_⟩
  intro h
  exact absurd h.agree (by decide)

end NetfabricBgp.RouteOrders
