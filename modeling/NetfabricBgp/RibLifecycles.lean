import NetfabricBgp.RibInvariants

/-!
A RIB over its whole life: the calls of routers, with `clear` and `clone` between them.
Clearing forgets the masks with the routes, so the 64 routers that fit in the mask map
are counted anew after it, and a clone goes on with the masks of its original.
-/
namespace NetfabricBgp.RibLifecycles

open Addresses NetworkTables Routes RouterMasks RibEntries Ribs RibInvariants

/-- One operation on a RIB: a call by a router, a reset, or a copy that replaces the original. -/
inductive Operation
  | call (op : BgpRib.Op)
  | clear
  | clone
deriving DecidableEq

def Operation.router : Operation → Option Uuid
  | .call op => some op.router
  | .clear => none
  | .clone => none

def operate (rib : BgpRib) : Operation → Except Panic BgpRib
  | .call op => rib.step op
  | .clear => .ok rib.clear
  | .clone => .ok rib.clone

/-- The RIB after a sequence of operations. -/
def live (rib : BgpRib) (operations : List Operation) : Except Panic BgpRib :=
  Runs.run operate rib operations

/-- The routers that make a call in a stretch of operations. -/
def routers (operations : List Operation) : Finset Uuid :=
  (operations.filterMap Operation.router).toFinset

/-- At most 64 routers call between two resets. -/
def FewRouters (operations : List Operation) : Prop :=
  ∀ stretch, stretch <:+: operations → .clear ∉ stretch → (routers stretch).card ≤ 64

/-- What every stored entry looks like, in terms of the stored masks alone. -/
structure Represented (rib : BgpRib) : Prop where
  nonempty : ∀ network entry, rib.treebitmap.exactMatch network = some entry → entry.routes ≠ []
  distinct : ∀ network entry, rib.treebitmap.exactMatch network = some entry →
    entry.getAll.Pairwise (· ≠ ·)
  stored_at : ∀ network entry, rib.treebitmap.exactMatch network = some entry →
    ∀ route ∈ entry.getAll, route.pfx = network
  nonzero : ∀ network entry, rib.treebitmap.exactMatch network = some entry →
    ∀ tuple ∈ entry.routes, tuple.1.bits ≠ 0#64
  registered : ∀ network entry, rib.treebitmap.exactMatch network = some entry →
    ∀ tuple ∈ entry.routes, ∀ i, tuple.1.has i = true →
      ∃ id mask, rib.routerMaskMap.map.lookup id = some mask ∧ mask.has i = true
  held : ∀ network entry, rib.treebitmap.exactMatch network = some entry →
    ∀ route ∈ entry.getAll, ∃ id ∈ rib.routerMaskMap.map, route ∈ rib.held id network

section Representation
variable {rib : BgpRib} {network : IpNetwork} {entry : BgpRibEntry}

theorem entry_wellFormed (hw : WellFormed rib)
    (h : rib.treebitmap.exactMatch network = some entry) :
    entry.WellFormed network rib.routerMaskMap.mask := by
  have hentry := hw.entries network
  rwa [BgpRib.entryAt, h, Option.getD_some] at hentry

/-- Every bit of a stored mask is the whole mask of a registered router. -/
theorem exists_owner (hw : WellFormed rib)
    (h : rib.treebitmap.exactMatch network = some entry) {tuple : RouterMask × Route}
    (ht : tuple ∈ entry.routes) {i : ℕ} (hi : i < 64) (hhas : tuple.1.has i = true) :
    ∃ id, rib.routerMaskMap.map.lookup id = some (.ofBit i) :=
  (hw.masks.union i hi).mp ((entry_wellFormed hw h).registered tuple ht i hhas)

theorem lt_of_has {mask : RouterMask} {i : ℕ} (h : mask.has i = true) : i < 64 :=
  BitVec.lt_of_getLsbD h

/-- The owner of a bit of a stored mask reads the route that the mask is stored with. -/
theorem mem_held_of_owner (h : rib.treebitmap.exactMatch network = some entry)
    {tuple : RouterMask × Route} (ht : tuple ∈ entry.routes) {i : ℕ} (hi : i < 64)
    (hhas : tuple.1.has i = true) {id : Uuid}
    (howner : rib.routerMaskMap.map.lookup id = some (.ofBit i)) :
    tuple.2 ∈ rib.held id network := by
  rw [BgpRib.held_eq_entryAt, BgpRib.entryAt, h, Option.getD_some,
    RouterMaskMap.tryGet_of_lookup howner]
  apply List.mem_map_of_mem
  apply List.mem_filter.mpr
  refine ⟨ht, ?_⟩
  rw [RouterMask.contains_ofBit _ hi]
  exact hhas

theorem represented (hw : WellFormed rib) : Represented rib where
  nonempty := hw.nonempty
  distinct := fun _ _ h => (entry_wellFormed hw h).distinct
  stored_at := by
    intro network entry h route hroute
    obtain ⟨tuple, ht, rfl⟩ := List.mem_map.mp hroute
    exact (entry_wellFormed hw h).stored_at tuple ht
  nonzero := by
    intro network entry h tuple ht hzero
    exact (entry_wellFormed hw h).held tuple ht (congrArg RouterMask.mk hzero)
  registered := by
    intro network entry h tuple ht i hhas
    have hi := lt_of_has hhas
    obtain ⟨id, howner⟩ := exists_owner hw h ht hi hhas
    refine ⟨id, .ofBit i, howner, ?_⟩
    rw [RouterMask.has_ofBit hi]
    exact decide_eq_true rfl
  held := by
    intro network entry h route hroute
    obtain ⟨tuple, ht, rfl⟩ := List.mem_map.mp hroute
    obtain ⟨i, hi, hhas⟩ := RouterMask.exists_has ((entry_wellFormed hw h).held tuple ht)
    obtain ⟨id, howner⟩ := exists_owner hw h ht hi hhas
    exact ⟨id, Finmap.mem_of_lookup_eq_some howner, mem_held_of_owner h ht hi hhas howner⟩

end Representation

section Lives
variable {rib rib' : BgpRib} {operation : Operation} {operations : List Operation}

theorem wellFormed_operate (hw : WellFormed rib) (h : operate rib operation = .ok rib') :
    WellFormed rib' := by
  cases operation with
  | call op => exact wellFormed_step hw h
  | clear =>
    obtain rfl : rib.clear = rib' := Except.ok.inj h
    exact wellFormed_new
  | clone =>
    obtain rfl : rib.clone = rib' := Except.ok.inj h
    rw [BgpRib.clone_eq]
    exact hw

theorem wellFormed_live (hw : WellFormed rib) (h : live rib operations = .ok rib') :
    WellFormed rib' :=
  Runs.run_invariant WellFormed (fun _ _ _ => wellFormed_operate) hw h

theorem routers_cons_call (op : BgpRib.Op) (operations : List Operation) :
    routers (.call op :: operations) = insert op.router (routers operations) := by
  simp [routers, Operation.router]

theorem routers_cons_clone (operations : List Operation) :
    routers (.clone :: operations) = routers operations := rfl

theorem FewRouters.tail (h : FewRouters (operation :: operations)) : FewRouters operations :=
  fun stretch hstretch =>
    h stretch (hstretch.trans (List.suffix_cons operation operations).isInfix)

theorem fewRouters_of_length (h : operations.length ≤ 64) : FewRouters operations := by
  intro stretch hstretch _
  calc
    (routers stretch).card ≤ (stretch.filterMap Operation.router).length :=
      List.toFinset_card_le _
    _ ≤ stretch.length := List.length_filterMap_le ..
    _ ≤ operations.length := hstretch.length_le
    _ ≤ 64 := h

/-- The room that the next stretch needs in the mask map, with the routers already there. -/
def HasRoom (rib : BgpRib) (operations : List Operation) : Prop :=
  ∀ stretch, stretch <+: operations → .clear ∉ stretch →
    (rib.routerMaskMap.map.keys ∪ routers stretch).card ≤ 64

theorem hasRoom_new (h : FewRouters operations) : HasRoom BgpRib.new operations := by
  intro stretch hstretch hclear
  have hkeys : BgpRib.new.routerMaskMap.map.keys = ∅ := Finmap.keys_empty
  rw [hkeys, Finset.empty_union]
  exact h stretch hstretch.isInfix hclear

/-- A call finds room for its router and leaves room for the calls after it. -/
theorem HasRoom.call {op : BgpRib.Op} (hw : WellFormed rib)
    (hroom : HasRoom rib (.call op :: operations)) :
    ∃ rib', rib.step op = .ok rib' ∧ HasRoom rib' operations := by
  have hone : (rib.routerMaskMap.map.keys ∪ ([op].map BgpRib.Op.router).toFinset).card ≤ 64 := by
    have h := hroom [.call op] ⟨operations, rfl⟩ (by simp)
    simpa [routers, Operation.router] using h
  obtain ⟨rib', hrun⟩ := @run_total _ [op] hw hone
  obtain ⟨m, hstep, hnil⟩ := Runs.run_cons_ok.mp hrun
  obtain rfl : m = rib' := Except.ok.inj hnil
  refine ⟨m, hstep, ?_⟩
  intro stretch hstretch hclear
  have hcard := hroom (.call op :: stretch) (List.cons_prefix_cons.mpr ⟨rfl, hstretch⟩)
    (by simp [hclear])
  obtain ⟨mask, hget⟩ := get_of_step hstep
  rw [RouterMaskMap.keys_get hget]
  rwa [routers_cons_call, Finset.union_insert, ← Finset.insert_union] at hcard

theorem HasRoom.clone (hroom : HasRoom rib (.clone :: operations)) : HasRoom rib operations := by
  intro stretch hstretch hclear
  have hcard := hroom (.clone :: stretch) (List.cons_prefix_cons.mpr ⟨rfl, hstretch⟩)
    (by simp [hclear])
  rwa [routers_cons_clone] at hcard

theorem live_total (hw : WellFormed rib) (hroom : HasRoom rib operations)
    (hfew : FewRouters operations) : ∃ rib', live rib operations = .ok rib' := by
  refine Runs.run_total (fun s rest => WellFormed s ∧ HasRoom s rest ∧ FewRouters rest) ?_
    ⟨hw, hroom, hfew⟩
  intro s operation rest hs
  obtain ⟨hw, hroom, hfew⟩ := hs
  cases operation with
  | call op =>
    obtain ⟨s', hstep, hroom'⟩ := hroom.call hw
    exact ⟨s', hstep, wellFormed_step hw hstep, hroom', hfew.tail⟩
  | clear => exact ⟨s.clear, rfl, wellFormed_new, hasRoom_new hfew.tail, hfew.tail⟩
  | clone =>
    refine ⟨s.clone, rfl, ?_⟩
    rw [BgpRib.clone_eq]
    exact ⟨hw, hroom.clone, hfew.tail⟩

/-- Every life of a new RIB with few routers between resets succeeds, and its entries are
non-empty, hold distinct routes of their own prefix, and show each route to a registered
router. -/
theorem represented_live (operations : List Operation) (hfew : FewRouters operations) :
    ∃ rib, live BgpRib.new operations = .ok rib ∧ Represented rib := by
  obtain ⟨rib, hlive⟩ := live_total wellFormed_new (hasRoom_new hfew) hfew
  exact ⟨rib, hlive, represented (wellFormed_live wellFormed_new hlive)⟩

/-- A reset, and then two routers that share an entry, and a route that one of them withdraws. -/
def resetLife : List Operation :=
  [.call (.insertRoute (.sample 1 8 "10.0.0.1" [65001]) 1), .clone, .clear,
    .call (.registerRouter 2), .call (.insertRoute (.sample 1 8 "10.0.0.1" [65001]) 1),
    .call (.insertRoute (.sample 1 8 "10.0.0.1" [65001]) 2),
    .call (.insertRoute (.sample 2 8 "10.0.0.2" [65002]) 2),
    .call (.removeRoute (.sample 1 8 "" []) 1)]

theorem represented_live_reset :
    ∃ rib, live BgpRib.new resetLife = .ok rib ∧
      rib.stored (.V4 (.around 0x0A010203#32 8)) =
        [.sample 1 8 "10.0.0.1" [65001], .sample 2 8 "10.0.0.2" [65002]] ∧
      Represented rib := by
  obtain ⟨rib, hlive, hrepresented⟩ := represented_live resetLife
    (fewRouters_of_length (by decide))
  have hstored : (live BgpRib.new resetLife).map
      (fun rib => rib.stored (.V4 (.around 0x0A010203#32 8))) =
        .ok [.sample 1 8 "10.0.0.1" [65001], .sample 2 8 "10.0.0.2" [65002]] := rfl
  rw [hlive] at hstored
  exact ⟨rib, hlive, Except.ok.inj hstored, hrepresented⟩

end Lives

end NetfabricBgp.RibLifecycles
