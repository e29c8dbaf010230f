import NetfabricBgp.RouterMasks
import NetfabricBgp.Runs

/-!
The router mask map over its whole life: any sequence of registrations and removals.
The map stays well formed, so a registration can only fail when all bits are owned,
a removal frees one bit, and that bit is taken again by nobody but a router that
registers later.
-/
namespace NetfabricBgp.MaskLifetimes

open RouterMasks RouterMaskMap

theorem combineWith_right_comm (a b c : RouterMask) :
    (a.combineWith b).combineWith c = (a.combineWith c).combineWith b := by
  simp only [RouterMask.combineWith, BitVec.or_assoc, BitVec.or_comm b.bits]

/-- The union of all masks of a map. -/
def unionOf (map : Finmap (fun _ : Uuid => RouterMask)) : RouterMask :=
  map.foldl (fun union _ mask => union.combineWith mask)
    (fun union _ mask _ mask' => combineWith_right_comm union mask mask') .default

theorem has_foldl (entries : Multiset (Sigma fun _ : Uuid => RouterMask)) (union : RouterMask)
    (i : ℕ) :
    (@Multiset.foldl _ _ (fun union entry => union.combineWith entry.2)
      ⟨fun union _ _ => combineWith_right_comm union _ _⟩ union entries).has i = true ↔
      union.has i = true ∨ ∃ entry ∈ entries, entry.2.has i = true := by
  induction entries using Multiset.induction generalizing union with
  | empty => simp
  | cons entry rest ih =>
    rw [Multiset.foldl_cons, ih, RouterMask.has_combineWith, Bool.or_eq_true, or_assoc]
    simp only [Multiset.mem_cons, exists_eq_or_imp]

theorem has_unionOf (map : Finmap (fun _ : Uuid => RouterMask)) (i : ℕ) :
    (unionOf map).has i = true ↔ ∃ id mask, map.lookup id = some mask ∧ mask.has i = true := by
  refine (has_foldl map.entries .default i).trans ?_
  simp only [RouterMask.has_default, Bool.false_eq_true, false_or]
  constructor
  · rintro ⟨⟨id, mask⟩, hmem, hbit⟩
    exact ⟨id, mask, Finmap.mem_lookup_iff.mpr hmem, hbit⟩
  · rintro ⟨id, mask, hlookup, hbit⟩
    exact ⟨⟨id, mask⟩, Finmap.mem_lookup_iff.mp hlookup, hbit⟩

inductive Op
  | get (id : Uuid)
  | remove (id : Uuid)

def step (masks : RouterMaskMap) : Op → Except Panic RouterMaskMap
  | .get id => (masks.get id).map Prod.fst
  | .remove id => masks.remove id

def run (masks : RouterMaskMap) (ops : List Op) : Except Panic RouterMaskMap :=
  Runs.run step masks ops

section Steps
variable {masks masks' : RouterMaskMap} {id : Uuid} {mask : RouterMask}

theorem step_get_ok :
    step masks (.get id) = .ok masks' ↔ ∃ mask, masks.get id = .ok (masks', mask) := by
  simp [step, Runs.map_eq_ok]

theorem remove_ok :
    masks.remove id = .ok masks' ↔ ∃ mask, masks.map.lookup id = some mask ∧
      masks' = { masks with
        mask := ⟨masks.mask.bits ^^^ mask.bits⟩
        map := masks.map.erase id } := by
  cases h : masks.map.lookup id <;> simp [remove, h, eq_comm]

theorem lookup_step_of_ne {op : Op} {other : Uuid} (h : step masks op = .ok masks')
    (hne : op ≠ .remove other) {owned : RouterMask}
    (hother : masks.map.lookup other = some owned) : masks'.map.lookup other = some owned := by
  cases op with
  | get id =>
    obtain ⟨mask, hget⟩ := step_get_ok.mp h
    by_cases hid : other = id
    · subst hid
      rw [get_of_lookup hother, Except.ok.injEq, Prod.mk.injEq] at hget
      rw [← hget.1, hother]
    · rw [lookup_get_of_ne hget hid, hother]
  | remove id =>
    obtain ⟨mask, -, rfl⟩ := remove_ok.mp h
    refine lookup_erase_some.mpr ⟨?_, hother⟩
    intro heq
    exact hne (congrArg Op.remove heq.symm)

/-- The only way to come by a mask is to register while holding none. -/
theorem eq_get_of_lookup {op : Op} {other : Uuid} {owned : RouterMask}
    (h : step masks op = .ok masks') (hbefore : masks.map.lookup other ≠ some owned)
    (hafter : masks'.map.lookup other = some owned) :
    op = .get other ∧ masks.map.lookup other = none ∧ masks.get other = .ok (masks', owned) := by
  cases op with
  | get id =>
    obtain ⟨mask, hget⟩ := step_get_ok.mp h
    by_cases hid : other = id
    · subst hid
      have hmask : mask = owned := by
        rw [lookup_get hget, Option.some.injEq] at hafter
        exact hafter
      subst hmask
      rcases get_cases hget with ⟨hknown, -⟩ | ⟨hnone, -⟩
      · exact absurd hknown hbefore
      · exact ⟨rfl, hnone, hget⟩
    · rw [lookup_get_of_ne hget hid] at hafter
      exact absurd hafter hbefore
  | remove id =>
    obtain ⟨mask, -, rfl⟩ := remove_ok.mp h
    exact absurd (lookup_erase_some.mp hafter).2 hbefore

/-- The bits of the union after a removal: the bit of the removed router is clear. -/
theorem has_remove (hw : masks.WellFormed) (h : masks.remove id = .ok masks')
    (hmask : masks.map.lookup id = some mask) (j : ℕ) :
    masks'.mask.has j = (masks.mask.has j && !mask.has j) := by
  obtain ⟨owned, howned, rfl⟩ := remove_ok.mp h
  obtain rfl : owned = mask := by
    rw [howned, Option.some.injEq] at hmask
    exact hmask
  obtain ⟨i, hi, rfl, hset⟩ := lookup_bit hw howned
  rw [RouterMask.has_ofBit hi]
  exact MaskBits.getLsbD_xor_oneBit hset j

theorem wellFormed_remove (hw : masks.WellFormed) (h : masks.remove id = .ok masks') :
    masks'.WellFormed := by
  obtain ⟨mask, hmask, rfl⟩ := remove_ok.mp h
  obtain ⟨i, hi, rfl⟩ := hw.one_bit id mask hmask
  refine ⟨hw.default_eq, ?_, ?_, ?_⟩
  · intro other owned hother
    exact hw.one_bit other owned (lookup_erase_some.mp hother).2
  · intro other other' owned hother hother'
    exact hw.disjoint other other' owned (lookup_erase_some.mp hother).2
      (lookup_erase_some.mp hother').2
  · intro j hj
    rw [has_remove hw h hmask, RouterMask.has_ofBit hi]
    by_cases hij : i = j
    · subst hij
      simp only [decide_true, Bool.not_true, Bool.and_false, Bool.false_eq_true, false_iff]
      rintro ⟨other, hother⟩
      obtain ⟨hne, hold⟩ := lookup_erase_some.mp hother
      exact hne (hw.disjoint other id _ hold hmask)
    · simp only [hij, decide_false, Bool.not_false, Bool.and_true, hw.union j hj]
      constructor
      · rintro ⟨other, hother⟩
        refine ⟨other, lookup_erase_some.mpr ⟨?_, hother⟩⟩
        rintro rfl
        rw [hmask, Option.some.injEq] at hother
        exact hij (RouterMask.ofBit_injective hi hother)
      · rintro ⟨other, hother⟩
        exact ⟨other, (lookup_erase_some.mp hother).2⟩

theorem wellFormed_step {op : Op} (hw : masks.WellFormed) (h : step masks op = .ok masks') :
    masks'.WellFormed := by
  cases op with
  | get id =>
    obtain ⟨mask, hget⟩ := step_get_ok.mp h
    exact hw.get hget
  | remove id => exact wellFormed_remove hw h

end Steps

section Runs
variable {masks masks' : RouterMaskMap} {ops : List Op}

theorem wellFormed_run (hw : masks.WellFormed) (h : run masks ops = .ok masks') :
    masks'.WellFormed :=
  Runs.run_invariant WellFormed (fun _ _ _ hinv hstep => wellFormed_step hinv hstep) hw h

theorem lookup_run {id : Uuid} {mask : RouterMask} (h : run masks ops = .ok masks')
    (hkept : Op.remove id ∉ ops) (hmask : masks.map.lookup id = some mask) :
    masks'.map.lookup id = some mask := by
  induction ops generalizing masks with
  | nil =>
    obtain rfl : masks = masks' := Except.ok.inj h
    exact hmask
  | cons op rest ih =>
    obtain ⟨hhead, hrest⟩ := not_or.mp (List.mem_cons.not.mp hkept)
    obtain ⟨next, hop, hnext⟩ := Runs.run_cons_ok.mp h
    exact ih hnext hrest (lookup_step_of_ne hop (Ne.symm hhead) hmask)

end Runs

section Full
variable {masks : RouterMaskMap}

theorem mask_eq_unionOf (hw : masks.WellFormed) : masks.mask = unionOf masks.map := by
  apply RouterMask.ext_has
  intro i
  rw [Bool.eq_iff_iff, has_unionOf]
  constructor
  · intro hset
    have hi : i < 64 := BitVec.lt_of_getLsbD hset
    obtain ⟨id, hid⟩ := (hw.union i hi).mp hset
    exact ⟨id, _, hid, by rw [RouterMask.has_ofBit hi, decide_eq_true rfl]⟩
  · rintro ⟨id, mask, hid, hbit⟩
    obtain ⟨j, hj, rfl, hset⟩ := lookup_bit hw hid
    rw [RouterMask.has_ofBit hj] at hbit
    exact of_decide_eq_true hbit ▸ hset

/-- The masks of different routers have no bit in common. -/
theorem bits_disjoint (hw : masks.WellFormed) {id id' : Uuid} {mask mask' : RouterMask}
    (hne : id ≠ id') (hid : masks.map.lookup id = some mask)
    (hid' : masks.map.lookup id' = some mask') : mask.bits &&& mask'.bits = 0#64 := by
  obtain ⟨i, hi, rfl⟩ := hw.one_bit id mask hid
  obtain ⟨j, hj, rfl⟩ := hw.one_bit id' mask' hid'
  have hij : i ≠ j := by
    rintro rfl
    exact hne (hw.disjoint id id' _ hid hid')
  have hbit : (RouterMask.ofBit i).has j = false := by
    rw [RouterMask.has_ofBit hi, decide_eq_false hij]
  exact (MaskBits.and_oneBit_eq_zero_iff _ hj).mpr hbit

/-- Different routers own different bits, so there are at most 64 of them. -/
theorem card_le (hw : masks.WellFormed) : masks.map.keys.card ≤ 64 := by
  have hbit : ∀ id, ∃ i, id ∈ masks.map.keys → i < 64 ∧ masks.map.lookup id = some (.ofBit i) := by
    intro id
    by_cases hmem : id ∈ masks.map.keys
    · obtain ⟨mask, hmask⟩ := Finmap.mem_iff.mp (Finmap.mem_keys.mp hmem)
      obtain ⟨i, hi, rfl⟩ := hw.one_bit id mask hmask
      exact ⟨i, fun _ => ⟨hi, hmask⟩⟩
    · exact ⟨0, fun h => absurd h hmem⟩
  choose bit hbit using hbit
  have hle := Finset.card_le_card_of_injOn bit
    (fun id hid => Finset.mem_range.mpr (hbit id hid).1)
    (fun id hid id' hid' heq => hw.disjoint id id' _ (hbit id hid).2 (heq ▸ (hbit id' hid').2))
  simpa using hle

theorem get_error {id : Uuid} {panic : Panic}
    (h : masks.get id = .error panic) : panic = .routerMaskMapFull := by
  unfold RouterMaskMap.get at h
  cases hlookup : masks.map.lookup id with
  | some mask => simp [hlookup] at h
  | none =>
    by_cases hfull : masks.mask.bits = BitVec.allOnes 64
    · simp only [hlookup, hfull, if_true, Except.error.injEq] at h
      exact h.symm
    · cases hfree : MaskBits.lowestFree masks.mask.bits with
      | none => exact absurd (MaskBits.lowestFree_none hfree) hfull
      | some bit =>
        simp only [hlookup, hfull, if_false, hfree] at h
        cases h

theorem get_fails_iff (hw : masks.WellFormed) {id : Uuid} (hnew : masks.map.lookup id = none) :
    masks.get id = .error .routerMaskMapFull ↔ masks.map.keys.card = 64 := by
  have hle := card_le hw
  constructor
  · intro h
    by_contra hne
    obtain ⟨r, hr⟩ := @get_total _ hw id (Or.inr (by omega))
    rw [h] at hr
    cases hr
  · intro hcard
    rcases hget : masks.get id with panic | ⟨masks', mask⟩
    · rw [get_error hget]
    · have hkeys := keys_get hget
      have hnot : id ∉ masks.map.keys :=
        fun hmem => Finmap.lookup_eq_none.mp hnew (Finmap.mem_keys.mp hmem)
      have hle' := card_le (hw.get hget)
      rw [hkeys, Finset.card_insert_of_notMem hnot] at hle'
      omega

end Full

section Lifetimes

/-- Whoever is found with the mask later has registered for it, without a mask of its own
at that time, and has not been removed since. -/
def TakenByNewOnly (masks : RouterMaskMap) (mask : RouterMask) : Prop :=
  ∀ later masks' other, run masks later = .ok masks' → masks'.map.lookup other = some mask →
    ∃ before after m m', later = before ++ .get other :: after ∧ run masks before = .ok m ∧
      m.map.lookup other = none ∧ m.get other = .ok (m', mask) ∧ run m' after = .ok masks' ∧
        Op.remove other ∉ after

theorem takenByNewOnly {masks : RouterMaskMap} {mask : RouterMask}
    (hfree : ∀ other, masks.map.lookup other ≠ some mask) : TakenByNewOnly masks mask := by
  intro later masks' other hrun hother
  obtain ⟨before, op, after, m, m', rfl, hbefore, hm, hop, hm', hafter, hkept⟩ :=
    Runs.run_enters (fun m => m.map.lookup other = some mask) (hfree other) hrun hother
  obtain ⟨rfl, hnone, hget⟩ := eq_get_of_lookup hop hm hm'
  refine ⟨before, after, m, m', rfl, hbefore, hnone, hget, hafter, ?_⟩
  intro hremove
  obtain ⟨l₃, l₄, rfl⟩ := List.append_of_mem hremove
  obtain ⟨n, hn, hrest⟩ := Runs.run_append_ok.mp hafter
  obtain ⟨n', hn', -⟩ := Runs.run_cons_ok.mp hrest
  have howned := hkept (l₃ ++ [.remove other]) l₄ n' (by simp)
    (Runs.run_append_ok.mpr ⟨n, hn, Runs.run_cons_ok.mpr ⟨n', hn', rfl⟩⟩)
  obtain ⟨removed, -, rfl⟩ := remove_ok.mp hn'
  exact (lookup_erase_some.mp howned).1 rfl

/-- What holds of the mask map after any sequence of registrations and removals. -/
theorem masks_of_reachable {ops : List Op} {masks : RouterMaskMap}
    (h : run RouterMaskMap.new ops = .ok masks) :
    (∀ id mask, masks.map.lookup id = some mask → ∃ i, i < 64 ∧ mask = .ofBit i) ∧
    (∀ id id' mask mask', id ≠ id' → masks.map.lookup id = some mask →
      masks.map.lookup id' = some mask' → mask.bits &&& mask'.bits = 0#64) ∧
    masks.mask = unionOf masks.map ∧ masks.map.keys.card ≤ 64 ∧
    (∀ id masks₁ mask later masks₂, masks.get id = .ok (masks₁, mask) → Op.remove id ∉ later →
      run masks₁ later = .ok masks₂ → masks₂.get id = .ok (masks₂, mask)) ∧
    (∀ id, masks.map.lookup id = none →
      ((∃ panic, masks.get id = .error panic) ↔ masks.map.keys.card = 64)) ∧
    (∀ id, masks.get id ≠ .error .routerMaskMapCorrupted) ∧
    ∀ id mask, masks.map.lookup id = some mask → ∃ masks₁, masks.remove id = .ok masks₁ ∧
      masks₁.map = masks.map.erase id ∧
      (∀ i, masks₁.mask.has i = (masks.mask.has i && !mask.has i)) ∧
      TakenByNewOnly masks₁ mask := by
  have hw : masks.WellFormed := wellFormed_run wellFormed_new h
  refine ⟨hw.one_bit, fun id id' mask mask' => bits_disjoint hw, mask_eq_unionOf hw, card_le hw,
    ?_, ?_, ?_, ?_⟩
  · intro id masks₁ mask later masks₂ hget hkept hlater
    exact get_of_lookup (lookup_run hlater hkept (lookup_get hget))
  · intro id hnew
    rw [← get_fails_iff hw hnew]
    constructor
    · rintro ⟨panic, hpanic⟩
      rw [hpanic, get_error hpanic]
    · exact fun hfull => ⟨_, hfull⟩
  · intro id hcorrupted
    cases get_error hcorrupted
  · intro id mask hmask
    have hremove := remove_ok.mpr ⟨mask, hmask, rfl⟩
    refine ⟨_, hremove, rfl, has_remove hw hremove hmask, takenByNewOnly ?_⟩
    intro other hother
    obtain ⟨hne, hold⟩ := lookup_erase_some.mp hother
    exact hne (hw.disjoint other id mask hold hmask)

/-- Bit 0 is given back and taken again by the router that comes next. -/
theorem masks_of_reachable_reused : ∃ masks,
    run RouterMaskMap.new [.get 7, .get 8, .remove 7, .get 9] = .ok masks ∧
      masks.map.lookup 9 = some (.ofBit 0) ∧ masks.mask = unionOf masks.map := by
  have hrun : ∃ masks, run RouterMaskMap.new [.get 7, .get 8, .remove 7, .get 9] = .ok masks ∧
      masks.map.lookup 9 = some (.ofBit 0) := ⟨_, rfl, rfl⟩
  obtain ⟨masks, h, hnine⟩ := hrun
  exact ⟨masks, h, hnine, (masks_of_reachable h).2.2.1⟩

end Lifetimes

end NetfabricBgp.MaskLifetimes
