import NetfabricBgp.MaskBits
import Mathlib.Data.Finmap
import Mathlib.Data.Fintype.Card

/-!
Router masks and the map that hands one bit of a 64-bit word to each router.
A well-formed map gives different routers different bits and keeps the union of the
bits in use. The bit a router got first stays its bit, and a full map means that all
64 bits belong to registered routers.
-/
namespace NetfabricBgp.RouterMasks

open MaskBits

abbrev Uuid := BitVec 128

section Lookups
variable {β : Type} {map : Finmap (fun _ : Uuid => β)} {id other : Uuid} {stored value : β}

theorem lookup_insert_some (h : (map.insert id stored).lookup other = some value) :
    (other = id ∧ value = stored) ∨ (other ≠ id ∧ map.lookup other = some value) := by
  by_cases hne : other = id
  · subst hne
    rw [Finmap.lookup_insert, Option.some.injEq] at h
    exact Or.inl ⟨rfl, h.symm⟩
  · rw [Finmap.lookup_insert_of_ne _ hne] at h
    exact Or.inr ⟨hne, h⟩

theorem lookup_erase_some :
    (map.erase id).lookup other = some value ↔ other ≠ id ∧ map.lookup other = some value := by
  by_cases h : other = id
  · subst h
    simp
  · simp [Finmap.lookup_erase_ne h, h]

end Lookups

/-- The panics of the source that the modelled functions can reach. -/
inductive Panic
  | routerMaskMapFull
  | routerMaskMapCorrupted
  | unwrapOnNone
deriving DecidableEq

def Panic.message : Panic → String
  | .routerMaskMapFull => "Router mask map is full"
  | .routerMaskMapCorrupted => "RouterMaskMap is corrupted"
  | .unwrapOnNone => "called `Option::unwrap()` on a `None` value"

structure RouterMask where
  bits : BitVec 64
deriving DecidableEq

namespace RouterMask

def default : RouterMask := ⟨0#64⟩

def len (self : RouterMask) : ℕ := self.bits.cpop.toNat

def contains (self other : RouterMask) : Bool :=
  other.bits ≠ 0#64 ∧ self.bits &&& other.bits = other.bits

def remove (self other : RouterMask) : RouterMask := ⟨self.bits &&& ~~~other.bits⟩

def combineWith (self other : RouterMask) : RouterMask := ⟨self.bits ||| other.bits⟩

/-- The mask of the router that owns bit `i`. -/
def ofBit (i : ℕ) : RouterMask := ⟨1#64 <<< i⟩

def has (self : RouterMask) (i : ℕ) : Bool := self.bits.getLsbD i

theorem len_eq_card (mask : RouterMask) :
    mask.len = ((Finset.range 64).filter (fun i => mask.has i = true)).card :=
  toNat_cpop_eq_card mask.bits

theorem ext_has {mask mask' : RouterMask} (h : ∀ i, mask.has i = mask'.has i) : mask = mask' :=
  congrArg RouterMask.mk (BitVec.eq_of_getLsbD_eq fun i _ => h i)

theorem contains_default (mask : RouterMask) : mask.contains default = false := by
  simp [contains, default]

theorem contains_ofBit (mask : RouterMask) {i : ℕ} (hi : i < 64) :
    mask.contains (ofBit i) = mask.has i := by
  rw [Bool.eq_iff_iff]
  simp only [contains, ofBit, has, ne_eq, decide_eq_true_eq, and_oneBit_eq_self_iff _ hi,
    oneBit_ne_zero hi, not_false_eq_true, true_and]

theorem has_ofBit {i j : ℕ} (hi : i < 64) : (ofBit i).has j = decide (i = j) := by
  simp only [has, ofBit, getLsbD_oneBit, hi, decide_true, Bool.true_and]

theorem has_default (i : ℕ) : default.has i = false := by
  simp [has, default]

theorem has_combineWith (mask other : RouterMask) (i : ℕ) :
    (mask.combineWith other).has i = (mask.has i || other.has i) :=
  BitVec.getLsbD_or

theorem has_combineWith_ofBit (mask : RouterMask) {i j : ℕ} (hi : i < 64) :
    (mask.combineWith (ofBit i)).has j = (mask.has j || decide (i = j)) :=
  getLsbD_or_oneBit mask.bits hi

theorem has_remove_ofBit (mask : RouterMask) {i j : ℕ} (hi : i < 64) :
    (mask.remove (ofBit i)).has j = (mask.has j && !decide (i = j)) :=
  getLsbD_and_not_oneBit mask.bits hi

theorem combineWith_ofBit_of_has {mask : RouterMask} {i : ℕ} (h : mask.has i = true) :
    mask.combineWith (ofBit i) = mask :=
  congrArg RouterMask.mk (or_oneBit_of_getLsbD h)

theorem remove_ofBit_of_not_has {mask : RouterMask} {i : ℕ} (hi : i < 64)
    (h : mask.has i = false) : mask.remove (ofBit i) = mask := by
  apply ext_has
  intro j
  rw [has_remove_ofBit _ hi]
  by_cases hij : i = j
  · subst hij
    simp [h]
  · simp [hij]

/-- Removing a bit that was just added. -/
theorem remove_combineWith_ofBit {mask : RouterMask} {i : ℕ} (hi : i < 64)
    (h : mask.has i = false) : (mask.combineWith (ofBit i)).remove (ofBit i) = mask := by
  apply ext_has
  intro j
  rw [has_remove_ofBit _ hi, has_combineWith_ofBit _ hi]
  by_cases hij : i = j
  · subst hij
    simp [h]
  · simp [hij]

theorem ofBit_injective {i j : ℕ} (hi : i < 64) (h : ofBit i = ofBit j) : i = j :=
  oneBit_injective hi (congrArg bits h)

theorem ofBit_ne_default {i : ℕ} (hi : i < 64) : ofBit i ≠ default :=
  fun h => oneBit_ne_zero hi (congrArg bits h)

theorem exists_has {mask : RouterMask} (h : mask ≠ default) : ∃ i, i < 64 ∧ mask.has i = true := by
  apply exists_bit_of_ne_zero
  intro hbits
  exact h (congrArg RouterMask.mk hbits)

theorem eq_ofBit {mask : RouterMask} {i : ℕ} (hi : i < 64)
    (h : ∀ j, mask.has j = true ↔ i = j) : mask = ofBit i :=
  congrArg RouterMask.mk (eq_oneBit_of_bits hi h)

end RouterMask

structure RouterMaskMap where
  default : RouterMask
  mask : RouterMask
  map : Finmap (fun _ : Uuid => RouterMask)

namespace RouterMaskMap

def new : RouterMaskMap := ⟨RouterMask.default, RouterMask.default, ∅⟩

def tryGet (self : RouterMaskMap) (routerId : Uuid) : RouterMask :=
  (self.map.lookup routerId).getD self.default

/-- A known router keeps its mask; a new one is given the lowest free bit. -/
def get (self : RouterMaskMap) (routerId : Uuid) : Except Panic (RouterMaskMap × RouterMask) :=
  match self.map.lookup routerId with
  | some mask => .ok (self, mask)
  | none =>
    if self.mask.bits = BitVec.allOnes 64 then
      .error .routerMaskMapFull
    else
      match lowestFree self.mask.bits with
      | some bit =>
        .ok ({ self with
          mask := self.mask.combineWith (.ofBit bit)
          map := self.map.insert routerId (.ofBit bit) }, .ofBit bit)
      | none => .error .routerMaskMapCorrupted

/-- The union is toggled by the mask that is removed. -/
def remove (self : RouterMaskMap) (routerId : Uuid) : Except Panic RouterMaskMap :=
  match self.map.lookup routerId with
  | some mask =>
    .ok { self with
      mask := ⟨self.mask.bits ^^^ mask.bits⟩
      map := self.map.erase routerId }
  | none => .error .unwrapOnNone

/-- The known routers, each once and in no particular order. -/
def getAllIds (self : RouterMaskMap) : Finset Uuid := self.map.keys

structure WellFormed (masks : RouterMaskMap) : Prop where
  default_eq : masks.default = RouterMask.default
  one_bit : ∀ id mask, masks.map.lookup id = some mask → ∃ i, i < 64 ∧ mask = .ofBit i
  disjoint : ∀ id id' mask, masks.map.lookup id = some mask → masks.map.lookup id' = some mask →
    id = id'
  union : ∀ i, i < 64 → (masks.mask.has i = true ↔ ∃ id, masks.map.lookup id = some (.ofBit i))

theorem wellFormed_new : new.WellFormed where
  default_eq := rfl
  one_bit := by simp [new]
  disjoint := by simp [new]
  union := by simp [new, RouterMask.has, RouterMask.default]

/-- What `get` can do: return the known mask, or register the router on a free bit. -/
theorem get_cases {self self' : RouterMaskMap} {id : Uuid} {mask : RouterMask}
    (h : self.get id = .ok (self', mask)) :
    (self.map.lookup id = some mask ∧ self' = self) ∨
      (self.map.lookup id = none ∧ ∃ i, i < 64 ∧ self.mask.has i = false ∧ mask = .ofBit i ∧
        self' = { self with
          mask := self.mask.combineWith (.ofBit i)
          map := self.map.insert id (.ofBit i) }) := by
  unfold get at h
  cases hlookup : self.map.lookup id with
  | some known =>
    rw [hlookup] at h
    simp only [Except.ok.injEq, Prod.mk.injEq] at h
    obtain ⟨rfl, rfl⟩ := h
    exact Or.inl ⟨rfl, rfl⟩
  | none =>
    rw [hlookup] at h
    by_cases hfull : self.mask.bits = BitVec.allOnes 64
    · simp [hfull] at h
    · cases hfree : lowestFree self.mask.bits with
      | none => exact absurd (lowestFree_none hfree) hfull
      | some bit =>
        simp only [hfull, if_false, hfree, Except.ok.injEq, Prod.mk.injEq] at h
        obtain ⟨rfl, rfl⟩ := h
        obtain ⟨hlt, hclear⟩ := lowestFree_some hfree
        exact Or.inr ⟨rfl, bit, hlt, hclear, rfl, rfl⟩

section Get
variable {self self' : RouterMaskMap} {id : Uuid} {mask : RouterMask}

theorem lookup_get (h : self.get id = .ok (self', mask)) : self'.map.lookup id = some mask := by
  rcases get_cases h with ⟨hknown, rfl⟩ | ⟨-, i, -, -, rfl, rfl⟩
  · exact hknown
  · exact Finmap.lookup_insert self.map

theorem lookup_get_of_ne (h : self.get id = .ok (self', mask)) {other : Uuid} (hne : other ≠ id) :
    self'.map.lookup other = self.map.lookup other := by
  rcases get_cases h with ⟨-, rfl⟩ | ⟨-, i, -, -, -, rfl⟩
  · rfl
  · exact Finmap.lookup_insert_of_ne self.map hne

theorem get_of_lookup (h : self.map.lookup id = some mask) : self.get id = .ok (self, mask) := by
  simp [get, h]

theorem default_get (h : self.get id = .ok (self', mask)) : self'.default = self.default := by
  rcases get_cases h with ⟨-, rfl⟩ | ⟨-, i, -, -, -, rfl⟩ <;> rfl

/-- Nobody owns a bit that is clear in the union. -/
theorem WellFormed.unowned (hw : self.WellFormed) {i : ℕ} (hi : i < 64)
    (hclear : self.mask.has i = false) (other : Uuid) :
    self.map.lookup other ≠ some (.ofBit i) := by
  intro hother
  have hset := (hw.union i hi).mpr ⟨other, hother⟩
  rw [hclear] at hset
  exact Bool.noConfusion hset

/-- Registering a new router on a clear bit. -/
theorem WellFormed.register (hw : self.WellFormed) (hnone : self.map.lookup id = none) {i : ℕ}
    (hi : i < 64) (hclear : self.mask.has i = false) :
    WellFormed { self with
      mask := self.mask.combineWith (.ofBit i)
      map := self.map.insert id (.ofBit i) } := by
  refine ⟨hw.default_eq, ?_, ?_, ?_⟩
  · intro other m hm
    rcases lookup_insert_some hm with ⟨-, rfl⟩ | ⟨-, hold⟩
    · exact ⟨i, hi, rfl⟩
    · exact hw.one_bit other m hold
  · intro other other' m hm hm'
    rcases lookup_insert_some hm with ⟨rfl, rfl⟩ | ⟨-, hold⟩
    · rcases lookup_insert_some hm' with ⟨rfl, -⟩ | ⟨-, hold'⟩
      · rfl
      · exact absurd hold' (hw.unowned hi hclear other')
    · rcases lookup_insert_some hm' with ⟨rfl, rfl⟩ | ⟨-, hold'⟩
      · exact absurd hold (hw.unowned hi hclear other)
      · exact hw.disjoint other other' m hold hold'
  · intro j hj
    rw [RouterMask.has_combineWith_ofBit _ hi]
    by_cases hij : i = j
    · subst hij
      simp only [decide_true, Bool.or_true, true_iff]
      exact ⟨id, Finmap.lookup_insert self.map⟩
    · simp only [hij, decide_false, Bool.or_false, hw.union j hj]
      constructor
      · intro hold
        obtain ⟨other, hother⟩ := hold
        refine ⟨other, ?_⟩
        have hne : other ≠ id := by
          intro heq
          rw [heq, hnone] at hother
          cases hother
        rw [Finmap.lookup_insert_of_ne _ hne]
        exact hother
      · intro hnew
        obtain ⟨other, hother⟩ := hnew
        rcases lookup_insert_some hother with ⟨-, hbit⟩ | ⟨-, hold⟩
        · exact absurd (RouterMask.ofBit_injective hj hbit).symm hij
        · exact ⟨other, hold⟩

theorem WellFormed.get (hw : self.WellFormed) (h : self.get id = .ok (self', mask)) :
    self'.WellFormed := by
  rcases get_cases h with ⟨-, rfl⟩ | ⟨hnone, i, hi, hclear, -, rfl⟩
  · exact hw
  · exact hw.register hnone hi hclear

theorem lookup_bit (hw : self.WellFormed) (h : self.map.lookup id = some mask) :
    ∃ i, i < 64 ∧ mask = .ofBit i ∧ self.mask.has i = true := by
  obtain ⟨i, hi, rfl⟩ := hw.one_bit id mask h
  exact ⟨i, hi, rfl, (hw.union i hi).mpr ⟨id, h⟩⟩

theorem tryGet_of_lookup (h : self.map.lookup id = some mask) : self.tryGet id = mask := by
  simp [tryGet, h]

theorem tryGet_of_none (hw : self.WellFormed) (h : self.map.lookup id = none) :
    self.tryGet id = RouterMask.default := by
  simp [tryGet, h, hw.default_eq]

end Get

/-- A full union mask belongs to 64 registered routers, one for each bit. -/
theorem card_of_full {self : RouterMaskMap} (hw : self.WellFormed)
    (hfull : self.mask.bits = BitVec.allOnes 64) : 64 ≤ self.map.keys.card := by
  have howner : ∀ i : Fin 64, ∃ id, self.map.lookup id = some (.ofBit i.val) := by
    intro i
    apply (hw.union i.val i.isLt).mp
    rw [RouterMask.has, hfull, BitVec.getLsbD_allOnes]
    exact decide_eq_true i.isLt
  choose owner howner using howner
  have hinj : Function.Injective owner := by
    intro i j hij
    have hi := howner i
    rw [hij, howner j, Option.some.injEq] at hi
    exact Fin.ext (RouterMask.ofBit_injective j.isLt hi).symm
  have hmem : ∀ i, owner i ∈ self.map.keys := by
    intro i
    exact Finmap.mem_keys.mpr (Finmap.mem_of_lookup_eq_some (howner i))
  calc
    64 = (Finset.univ : Finset (Fin 64)).card := by simp
    _ ≤ self.map.keys.card :=
      Finset.card_le_card_of_injOn owner (fun i _ => hmem i) (fun i _ j _ h => hinj h)

/-- `get` answers for every known router, and for a new one while a bit is free. -/
theorem get_total {self : RouterMaskMap} (hw : self.WellFormed) {id : Uuid}
    (hroom : id ∈ self.map ∨ self.map.keys.card < 64) : ∃ r, self.get id = .ok r := by
  cases hlookup : self.map.lookup id with
  | some mask => exact ⟨_, get_of_lookup hlookup⟩
  | none =>
    have hfull : self.mask.bits ≠ BitVec.allOnes 64 := by
      intro hfull
      have hcard := card_of_full hw hfull
      rcases hroom with hmem | hlt
      · exact Finmap.lookup_eq_none.mp hlookup hmem
      · omega
    cases hfree : lowestFree self.mask.bits with
    | none => exact absurd (lowestFree_none hfree) hfull
    | some bit =>
      simp only [get, hlookup, hfull, if_false, hfree]
      exact ⟨_, rfl⟩

theorem keys_get {self self' : RouterMaskMap} {id : Uuid} {mask : RouterMask}
    (h : self.get id = .ok (self', mask)) : self'.map.keys = insert id self.map.keys := by
  apply Finset.ext
  intro other
  simp only [Finset.mem_insert, Finmap.mem_keys]
  rcases get_cases h with ⟨hknown, rfl⟩ | ⟨-, i, -, -, -, rfl⟩
  · constructor
    · exact Or.inr
    · intro hor
      rcases hor with rfl | hmem
      · exact Finmap.mem_of_lookup_eq_some hknown
      · exact hmem
  · exact Finmap.mem_insert

end RouterMaskMap

end NetfabricBgp.RouterMasks
