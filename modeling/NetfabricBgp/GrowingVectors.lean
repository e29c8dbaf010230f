import NetfabricBgp.BoundedQueues

/-!
Vectors that grow. A vector asks for more room when its elements do not fit, by a rule of its
own, so its capacity stays the one it was created with only while nobody overfills it. A
bounded list is a vector that has never grown.
-/
namespace NetfabricBgp.GrowingVectors

open BoundedQueues

/-- How much room a vector asks for when what is needed exceeds its capacity. -/
structure Growth where
  grow : ℕ → ℕ → ℕ
  enough : ∀ capacity needed, needed ≤ grow capacity needed

/-- At least twice the capacity that is left behind. -/
def Growth.doubling : Growth where
  grow := fun capacity needed => max (2 * capacity) needed
  enough := fun _ _ => Nat.le_max_right ..

/-- The panic of arithmetic on unsigned numbers. -/
inductive Overflow
  | subtract
deriving DecidableEq

/-- A vector, with the capacity that was asked for when it was created. -/
@[ext]
structure Vec (α : Type*) where
  items : List α
  capacity : ℕ
  created : ℕ
  fits : items.length ≤ capacity

namespace Vec

variable {α : Type*}

def withCapacity (capacity : ℕ) : Vec α := ⟨[], capacity, capacity, Nat.zero_le capacity⟩

def extend (growth : Growth) (self : Vec α) (l : List α) : Vec α where
  items := self.items ++ l
  capacity :=
    if self.items.length + l.length ≤ self.capacity then self.capacity
    else growth.grow self.capacity (self.items.length + l.length)
  created := self.created
  fits := by
    rw [List.length_append]
    by_cases h : self.items.length + l.length ≤ self.capacity
    · rw [if_pos h]
      exact h
    · rw [if_neg h]
      exact growth.enough _ _

def push (growth : Growth) (self : Vec α) (a : α) : Vec α := self.extend growth [a]

def len (self : Vec α) : ℕ := self.items.length

/-- The capacity without the length, as an unsigned subtraction. -/
def capacityLeft (self : Vec α) : Except Overflow ℕ :=
  if self.len ≤ self.capacity then .ok (self.capacity - self.len) else .error .subtract

def ofBounded (q : Bounded α) : Vec α := ⟨q.items, q.capacity, q.capacity, q.fits⟩

section OfBounded
variable (growth : Growth) (q : Bounded α)

theorem extend_ofBounded (l : List α) (h : l.length ≤ q.room) :
    (ofBounded q).extend growth l = ofBounded (q.extend l h) := by
  have hfits := q.fits
  have hroom : q.items.length + l.length ≤ q.capacity := by
    unfold Bounded.room at h
    omega
  exact Vec.ext rfl (if_pos hroom) rfl

theorem push_ofBounded (a : α) (h : q.items.length < q.capacity) :
    (ofBounded q).push growth a = ofBounded (q.push a h) :=
  extend_ofBounded growth q [a] (Bounded.room_pos.mpr h)

theorem capacityLeft_ofBounded : (ofBounded q).capacityLeft = .ok q.room :=
  if_pos q.fits

end OfBounded

end Vec

end NetfabricBgp.GrowingVectors
