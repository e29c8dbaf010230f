import Mathlib.Data.List.Basic

/-!
Lists of bounded length and the elements a rewriting filter lets through. Filtered
elements are moved into a bounded list until one of them finds no room. Either all of
them fit, or the input splits at the first one that does not.
-/
namespace NetfabricBgp.BoundedQueues

variable {α : Type*}

/-- A list that never outgrows its capacity. -/
structure Bounded (α : Type*) where
  items : List α
  capacity : ℕ
  fits : items.length ≤ capacity

namespace Bounded

def empty (capacity : ℕ) : Bounded α := ⟨[], capacity, Nat.zero_le capacity⟩

def room (q : Bounded α) : ℕ := q.capacity - q.items.length

def push (q : Bounded α) (a : α) (h : q.items.length < q.capacity) : Bounded α where
  items := q.items ++ [a]
  capacity := q.capacity
  fits := by
    rw [List.length_append, List.length_singleton]
    omega

def extend (q : Bounded α) (l : List α) (h : l.length ≤ q.room) : Bounded α where
  items := q.items ++ l
  capacity := q.capacity
  fits := by
    have hfits := q.fits
    rw [List.length_append]
    unfold room at h
    omega

/-- What remains of a bounded list after elements were taken off its front. -/
def keepSuffix (q : Bounded α) (l : List α) (h : l <:+ q.items) : Bounded α where
  items := l
  capacity := q.capacity
  fits := Nat.le_trans h.length_le q.fits

theorem room_push (q : Bounded α) (a : α) (h : q.items.length < q.capacity) :
    (q.push a h).room + 1 = q.room := by
  unfold room
  simp only [push, List.length_append, List.length_singleton]
  omega

theorem extend_push (q : Bounded α) (a : α) (l : List α) (hroom : q.items.length < q.capacity)
    (h : l.length ≤ (q.push a hroom).room) (h' : (a :: l).length ≤ q.room) :
    (q.push a hroom).extend l h = q.extend (a :: l) h' := by
  simp [push, extend]

theorem extend_nil (q : Bounded α) (h : ([] : List α).length ≤ q.room) : q.extend [] h = q := by
  simp [extend]

theorem room_extend (q : Bounded α) (l : List α) (h : l.length ≤ q.room) :
    (q.extend l h).room + l.length = q.room := by
  unfold room at h ⊢
  simp only [extend, List.length_append]
  omega

/-- Filling up after an element is filling up with the element in front. -/
theorem extend_take_push (q : Bounded α) (a : α) (l : List α)
    (hroom : q.items.length < q.capacity) :
    (q.push a hroom).extend (l.take (q.push a hroom).room) (List.length_take_le _ l) =
      q.extend ((a :: l).take q.room) (List.length_take_le _ (a :: l)) := by
  have hone : q.room = (q.push a hroom).room + 1 := (room_push q a hroom).symm
  have htake : (a :: l).take q.room = a :: l.take (q.push a hroom).room := by
    rw [hone, List.take_succ_cons]
  simp only [htake]
  exact extend_push q a (l.take (q.push a hroom).room) hroom _ _

theorem room_pos {q : Bounded α} : 0 < q.room ↔ q.items.length < q.capacity := by
  unfold room
  omega

end Bounded

/-- The elements a filter accepts, as the filter rewrites them. -/
def accepted (f : α → Bool × α) (l : List α) : List α :=
  l.filterMap (fun a => if (f a).1 then some (f a).2 else none)

section Accepted
variable (f : α → Bool × α)

@[simp]
theorem accepted_nil : accepted f [] = [] := rfl

theorem accepted_append (l l' : List α) : accepted f (l ++ l') = accepted f l ++ accepted f l' := by
  unfold accepted
  rw [List.filterMap_append]

theorem accepted_cons (a : α) (l : List α) :
    accepted f (a :: l) = if (f a).1 then (f a).2 :: accepted f l else accepted f l := by
  unfold accepted
  by_cases h : (f a).1 = true <;> simp [h]

/-- If the accepted elements outnumber the room, some accepted element is the first for
which no room is left. -/
theorem exists_first_overflow {n : ℕ} {l : List α} (h : n < (accepted f l).length) :
    ∃ taken a left, l = taken ++ a :: left ∧ (accepted f taken).length = n ∧ (f a).1 = true := by
  induction l generalizing n with
  | nil => simp [accepted] at h
  | cons a rest ih =>
    rw [accepted_cons] at h
    by_cases ha : (f a).1 = true
    · rw [if_pos ha, List.length_cons] at h
      cases n with
      | zero => exact ⟨[], a, rest, rfl, rfl, ha⟩
      | succ n =>
        obtain ⟨taken, b, left, rfl, hlen, hb⟩ := @ih n (by omega)
        refine ⟨a :: taken, b, left, rfl, ?_, hb⟩
        rw [accepted_cons, if_pos ha, List.length_cons, hlen]
    · rw [if_neg ha] at h
      obtain ⟨taken, b, left, rfl, hlen, hb⟩ := ih h
      refine ⟨a :: taken, b, left, rfl, ?_, hb⟩
      rw [accepted_cons, if_neg ha, hlen]

end Accepted

end NetfabricBgp.BoundedQueues
