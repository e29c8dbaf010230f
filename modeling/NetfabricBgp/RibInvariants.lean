import NetfabricBgp.Ribs

/-!
The representation invariant of the shared RIB and its consequence: a call by one
router changes what that router reads and nothing that another router reads. The
invariant ties every stored mask to registered routers, so that registering a router
late does not show it routes that were stored before.
-/
namespace NetfabricBgp.RibInvariants

open Addresses NetworkTables Routes RouterMasks RibEntries Ribs

/-- The mask map is well formed, and stored entries are well formed and not empty. -/
structure WellFormed (rib : BgpRib) : Prop where
  masks : rib.routerMaskMap.WellFormed
  entries : ∀ network, (rib.entryAt network).WellFormed network rib.routerMaskMap.mask
  nonempty : ∀ network entry, rib.treebitmap.exactMatch network = some entry → entry.routes ≠ []

theorem wellFormed_new : WellFormed BgpRib.new where
  masks := RouterMaskMap.wellFormed_new
  entries := fun _ => BgpRibEntry.wellFormed_new
  nonempty := fun _ _ h => by cases h

section Masks
variable {masks masks' : RouterMaskMap} {id : Uuid} {mask : RouterMask}

/-- The mask a router reads with: the empty one, or one bit in use. -/
theorem tryGet_cases (hw : masks.WellFormed) (router : Uuid) :
    masks.tryGet router = RouterMask.default ∨
      ∃ i, i < 64 ∧ masks.mask.has i = true ∧ masks.tryGet router = .ofBit i := by
  cases h : masks.map.lookup router with
  | none => exact Or.inl (RouterMaskMap.tryGet_of_none hw h)
  | some m =>
    obtain ⟨i, hi, rfl, hused⟩ := RouterMaskMap.lookup_bit hw h
    exact Or.inr ⟨i, hi, hused, RouterMaskMap.tryGet_of_lookup h⟩

theorem mask_get_mono (h : masks.get id = .ok (masks', mask)) {i : ℕ}
    (hi : masks.mask.has i = true) : masks'.mask.has i = true := by
  rcases RouterMaskMap.get_cases h with ⟨-, rfl⟩ | ⟨-, j, hj, -, -, rfl⟩
  · exact hi
  · rw [RouterMask.has_combineWith_ofBit _ hj, hi]
    rfl

/-- After `get` the caller owns one used bit, and no other router reads with it. -/
theorem get_bit (hw : masks.WellFormed) (h : masks.get id = .ok (masks', mask)) :
    ∃ i, i < 64 ∧ mask = .ofBit i ∧ masks'.mask.has i = true ∧ masks'.tryGet id = .ofBit i ∧
      ∀ other, other ≠ id → masks'.tryGet other ≠ .ofBit i := by
  have hw' := hw.get h
  have hlookup := RouterMaskMap.lookup_get h
  obtain ⟨i, hi, rfl, hused⟩ := RouterMaskMap.lookup_bit hw' hlookup
  refine ⟨i, hi, rfl, hused, RouterMaskMap.tryGet_of_lookup hlookup, ?_⟩
  intro other hne hother
  cases hmask : masks'.map.lookup other with
  | none =>
    rw [RouterMaskMap.tryGet_of_none hw' hmask] at hother
    exact RouterMask.ofBit_ne_default hi hother.symm
  | some m =>
    rw [RouterMaskMap.tryGet_of_lookup hmask] at hother
    subst hother
    exact hne (hw'.disjoint other id _ hmask hlookup)

/-- Entries that agree through all bits but the caller's read alike to all other routers. -/
theorem getWithMask_of_ne (hw : masks.WellFormed) {i : ℕ}
    (hother : ∀ other, other ≠ id → masks.tryGet other ≠ .ofBit i) {entry entry' : BgpRibEntry}
    (h : ∀ j, j < 64 → i ≠ j → entry'.getWithMask (.ofBit j) = entry.getWithMask (.ofBit j))
    {router : Uuid} (hne : router ≠ id) :
    entry'.getWithMask (masks.tryGet router) = entry.getWithMask (masks.tryGet router) := by
  rcases tryGet_cases hw router with hzero | ⟨j, hj, -, hbit⟩
  · rw [hzero, BgpRibEntry.getWithMask_default, BgpRibEntry.getWithMask_default]
  · have hij : i ≠ j := by
      intro hij
      rw [← hij] at hbit
      exact hother router hne hbit
    rw [hbit]
    exact h j hj hij

end Masks

section Register
variable {rib : BgpRib} {masks : RouterMaskMap} {id : Uuid} {mask : RouterMask}

/-- Asking for a mask, even a fresh one, changes no router's view. -/
theorem held_get (hw : WellFormed rib) (h : rib.routerMaskMap.get id = .ok (masks, mask))
    (router : Uuid) (network : IpNetwork) :
    (rib.entryAt network).getWithMask (masks.tryGet router) = rib.held router network := by
  rw [BgpRib.held_eq_entryAt]
  rcases RouterMaskMap.get_cases h with ⟨-, rfl⟩ | ⟨hnone, i, hi, hclear, -, rfl⟩
  · rfl
  · by_cases hne : router = id
    · subst hne
      have hold : rib.routerMaskMap.tryGet router = RouterMask.default :=
        RouterMaskMap.tryGet_of_none hw.masks hnone
      rw [RouterMaskMap.tryGet_of_lookup (RouterMaskMap.lookup_get h), hold,
        BgpRibEntry.getWithMask_default]
      have hbit := (RouterMaskMap.get_cases h).resolve_left (by simp [hnone])
      obtain ⟨-, j, hj, hfree, rfl, -⟩ := hbit
      exact (hw.entries network).getWithMask_unused hj hfree
    · have hsame := RouterMaskMap.lookup_get_of_ne h hne
      have htry : ∀ m : RouterMaskMap, m.default = rib.routerMaskMap.default →
          m.map.lookup router = rib.routerMaskMap.map.lookup router →
          m.tryGet router = rib.routerMaskMap.tryGet router := by
        intro m hdefault hlookup
        rw [RouterMaskMap.tryGet, RouterMaskMap.tryGet, hdefault, hlookup]
      rw [htry _ (RouterMaskMap.default_get h) hsame]

theorem entries_get (hw : WellFormed rib) (h : rib.routerMaskMap.get id = .ok (masks, mask))
    (network : IpNetwork) : (rib.entryAt network).WellFormed network masks.mask :=
  (hw.entries network).mono (fun _ hj => mask_get_mono h hj)

theorem wellFormed_get (hw : WellFormed rib) (h : rib.routerMaskMap.get id = .ok (masks, mask)) :
    WellFormed { rib with routerMaskMap := masks } where
  masks := hw.masks.get h
  entries := fun network =>
    show (rib.entryAt network).WellFormed network masks.mask from entries_get hw h network
  nonempty := hw.nonempty

end Register

section Insert
variable {rib rib' : BgpRib} {route : Route} {id : Uuid} {report : Option BestRoute}

theorem wellFormed_insertRoute (hw : WellFormed rib)
    (h : rib.insertRoute route id = .ok (rib', report)) : WellFormed rib' := by
  obtain ⟨masks, mask, hget, rfl, -⟩ := BgpRib.insertRoute_ok h
  have hentries := entries_get hw hget
  obtain ⟨i, hi, rfl, hused, -⟩ := get_bit hw.masks hget
  have hentry := (hentries route.pfx).insert hi hused rfl
  refine ⟨hw.masks.get hget, ?_, ?_⟩
  · intro network
    rw [BgpRib.entryAt_insert]
    by_cases hn : network = route.pfx
    · subst hn
      simpa only [if_true] using hentry
    · simpa only [hn, if_false] using hentries network
  · intro network entry hstored
    rw [IpNetworkTable.exactMatch_insert] at hstored
    by_cases hn : network = route.pfx
    · rw [if_pos hn, Option.some.injEq] at hstored
      subst hstored
      intro hnil
      have hmem := (BgpRibEntry.mem_getWithMask_insert hi route (rib.entryAt route.pfx) route).mpr
        (Or.inr rfl)
      simp [BgpRibEntry.getWithMask, hnil] at hmem
    · rw [if_neg hn] at hstored
      exact hw.nonempty network entry hstored

/-- An insertion is invisible to other routers and at other prefixes. -/
theorem held_insertRoute_of_ne (hw : WellFormed rib)
    (h : rib.insertRoute route id = .ok (rib', report)) {router : Uuid} {network : IpNetwork}
    (hne : router ≠ id ∨ network ≠ route.pfx) :
    rib'.held router network = rib.held router network := by
  obtain ⟨masks, mask, hget, rfl, -⟩ := BgpRib.insertRoute_ok h
  obtain ⟨i, hi, rfl, -, -, hother⟩ := get_bit hw.masks hget
  rw [BgpRib.held_eq_entryAt, BgpRib.entryAt_insert, ← held_get hw hget]
  by_cases hn : network = route.pfx
  · subst hn
    have hrouter : router ≠ id := hne.resolve_right (by simp)
    simp only [if_true]
    refine getWithMask_of_ne (hw.masks.get hget) hother ?_ hrouter
    intro j hj hij
    exact BgpRibEntry.getWithMask_insert_of_ne hi route hj hij _
  · simp only [hn, if_false]

theorem mem_held_insertRoute (hw : WellFormed rib)
    (h : rib.insertRoute route id = .ok (rib', report)) (x : Route) :
    x ∈ rib'.held id route.pfx ↔ x ∈ rib.held id route.pfx ∨ x = route := by
  obtain ⟨masks, mask, hget, rfl, -⟩ := BgpRib.insertRoute_ok h
  obtain ⟨i, hi, rfl, -, hself, -⟩ := get_bit hw.masks hget
  rw [BgpRib.held_eq_entryAt, BgpRib.entryAt_insert, ← held_get hw hget]
  simp only [if_true, hself]
  exact BgpRibEntry.mem_getWithMask_insert hi route _ x

/-- A route already held leaves the router's view as it is. -/
theorem held_insertRoute_of_mem (hw : WellFormed rib)
    (h : rib.insertRoute route id = .ok (rib', report))
    (hmem : route ∈ rib.held id route.pfx) :
    rib'.held id route.pfx = rib.held id route.pfx := by
  obtain ⟨masks, mask, hget, rfl, -⟩ := BgpRib.insertRoute_ok h
  obtain ⟨i, hi, rfl, -, hself, -⟩ := get_bit hw.masks hget
  rw [← held_get hw hget, hself] at hmem ⊢
  rw [BgpRib.held_eq_entryAt, BgpRib.entryAt_insert]
  simp only [if_true, hself]
  rw [BgpRibEntry.insert_of_mem hi (hw.entries route.pfx).distinct hmem]

/-- A new route enters the router's view where its tuple stands in the entry. -/
theorem held_insertRoute_split (hw : WellFormed rib)
    (h : rib.insertRoute route id = .ok (rib', report))
    (hnot : route ∉ rib.held id route.pfx) :
    ∃ before after, rib.held id route.pfx = before ++ after ∧
      rib'.held id route.pfx = before ++ route :: after ∧
      ∀ y ∈ before ++ after,
        (y ∈ after ↔ y ∈ (rib.stored route.pfx).dropWhile (· ≠ route)) := by
  obtain ⟨masks, mask, hget, rfl, -⟩ := BgpRib.insertRoute_ok h
  obtain ⟨i, hi, rfl, -, hself, -⟩ := get_bit hw.masks hget
  have hview := held_get hw hget id route.pfx
  rw [hself] at hview
  rw [← hview] at hnot
  refine ⟨(BgpRibEntry.mk ((rib.entryAt route.pfx).routes.takeWhile (·.2 ≠ route))).getWithMask
      (.ofBit i),
    (BgpRibEntry.mk ((rib.entryAt route.pfx).routes.dropWhile (·.2 ≠ route))).getWithMask
      (.ofBit i), ?_, ?_, ?_⟩
  · rw [← hview, ← BgpRibEntry.getWithMask_append, List.takeWhile_append_dropWhile]
  · rw [BgpRib.held_eq_entryAt, BgpRib.entryAt_insert]
    simp only [if_true, hself]
    exact BgpRibEntry.getWithMask_insert_split hi hnot
  · intro y hy
    have hdistinct := (hw.entries route.pfx).distinct
    rw [BgpRib.stored_eq_entryAt, BgpRibEntry.getAll, List.dropWhile_map]
    constructor
    · intro hafter
      exact BgpRibEntry.getWithMask_subset_getAll hafter
    · intro hdrop
      rcases List.mem_append.mp hy with hbefore | hafter
      · have htake := BgpRibEntry.getWithMask_subset_getAll hbefore
        exact absurd htake (BgpRibEntry.notMem_takeWhile hdistinct hdrop)
      · exact hafter

end Insert

section Remove
variable {rib rib' : BgpRib} {route : Route} {id : Uuid} {report : Option BestRoute}

theorem wellFormed_removeRoute (hw : WellFormed rib)
    (h : rib.removeRoute route id = .ok (rib', report)) : WellFormed rib' := by
  obtain ⟨masks, mask, hget, hmasks, hentries, hstored, -⟩ := BgpRib.removeRoute_ok h
  have hold := entries_get hw hget
  obtain ⟨i, hi, rfl, -⟩ := get_bit hw.masks hget
  refine ⟨hmasks ▸ hw.masks.get hget, ?_, ?_⟩
  · intro network
    rw [hentries, hmasks]
    by_cases hn : network = route.pfx
    · simpa only [hn, if_true] using (hold route.pfx).withdraw hi
    · simpa only [hn, if_false] using hold network
  · intro network entry hentry
    rcases hstored network entry hentry with hne | hold
    · exact hne
    · exact hw.nonempty network entry hold

/-- A removal is invisible to other routers and at other prefixes. -/
theorem held_removeRoute_of_ne (hw : WellFormed rib)
    (h : rib.removeRoute route id = .ok (rib', report)) {router : Uuid} {network : IpNetwork}
    (hne : router ≠ id ∨ network ≠ route.pfx) :
    rib'.held router network = rib.held router network := by
  obtain ⟨masks, mask, hget, hmasks, hentries, -, -⟩ := BgpRib.removeRoute_ok h
  obtain ⟨i, hi, rfl, -, -, hother⟩ := get_bit hw.masks hget
  rw [BgpRib.held_eq_entryAt, hentries, hmasks, ← held_get hw hget]
  by_cases hn : network = route.pfx
  · subst hn
    have hrouter : router ≠ id := hne.resolve_right (by simp)
    simp only [if_true]
    refine getWithMask_of_ne (hw.masks.get hget) hother ?_ hrouter
    intro j hj hij
    exact BgpRibEntry.getWithMask_withdraw_of_ne hi route hj hij _
  · simp only [hn, if_false]

theorem held_removeRoute (hw : WellFormed rib)
    (h : rib.removeRoute route id = .ok (rib', report)) :
    rib'.held id route.pfx = (rib.held id route.pfx).filter (fun x => x.key ≠ route.key) := by
  obtain ⟨masks, mask, hget, hmasks, hentries, -, -⟩ := BgpRib.removeRoute_ok h
  obtain ⟨i, hi, rfl, -, hself, -⟩ := get_bit hw.masks hget
  rw [BgpRib.held_eq_entryAt, hentries, hmasks, ← held_get hw hget]
  simp only [if_true, hself]
  exact BgpRibEntry.getWithMask_withdraw hi route _

/-- Nothing under the key of a removed route is held by the caller afterwards. -/
theorem notMem_held_removeRoute (hw : WellFormed rib)
    (h : rib.removeRoute route id = .ok (rib', report)) {x : Route} (hkey : x.key = route.key) :
    x ∉ rib'.held id route.pfx := by
  rw [held_removeRoute hw h]
  intro hmem
  exact of_decide_eq_true (List.mem_filter.mp hmem).2 hkey

end Remove

theorem nodup_stored {rib : BgpRib} (hw : WellFormed rib) (network : IpNetwork) :
    (rib.stored network).Nodup := by
  rw [BgpRib.stored_eq_entryAt]
  exact (hw.entries network).distinct

/-- Every route a router holds at a prefix has that prefix. -/
theorem pfx_of_held {rib : BgpRib} (hw : WellFormed rib) {router : Uuid} {network : IpNetwork}
    {route : Route} (h : route ∈ rib.held router network) : route.pfx = network := by
  rw [BgpRib.held_eq_entryAt] at h
  obtain ⟨tuple, ht, rfl⟩ := List.mem_map.mp (BgpRibEntry.getWithMask_subset_getAll h)
  exact (hw.entries network).stored_at tuple ht

section Steps

theorem wellFormed_step {rib rib' : BgpRib} {op : BgpRib.Op} (hw : WellFormed rib)
    (h : rib.step op = .ok rib') : WellFormed rib' := by
  cases op with
  | registerRouter id =>
    obtain ⟨masks, mask, hget, rfl⟩ := BgpRib.step_registerRouter_ok.mp h
    exact wellFormed_get hw hget
  | insertRoute route id =>
    obtain ⟨report, hinsert⟩ := BgpRib.step_insertRoute_ok.mp h
    exact wellFormed_insertRoute hw hinsert
  | removeRoute route id =>
    obtain ⟨report, hremove⟩ := BgpRib.step_removeRoute_ok.mp h
    exact wellFormed_removeRoute hw hremove

/-- A registration changes no view, the registered router's included. -/
theorem held_registerRouter {rib rib' : BgpRib} {id : Uuid} (hw : WellFormed rib)
    (h : rib.step (.registerRouter id) = .ok rib') (router : Uuid) (network : IpNetwork) :
    rib'.held router network = rib.held router network := by
  obtain ⟨masks, mask, hget, rfl⟩ := BgpRib.step_registerRouter_ok.mp h
  rw [BgpRib.held_eq_entryAt]
  exact held_get hw hget router network

/-- A call is invisible to the routers that did not make it. -/
theorem held_step_of_ne {rib rib' : BgpRib} {op : BgpRib.Op} (hw : WellFormed rib)
    (h : rib.step op = .ok rib') {router : Uuid} (hne : router ≠ op.router)
    (network : IpNetwork) : rib'.held router network = rib.held router network := by
  cases op with
  | registerRouter id => exact held_registerRouter hw h router network
  | insertRoute route id =>
    obtain ⟨report, hinsert⟩ := BgpRib.step_insertRoute_ok.mp h
    exact held_insertRoute_of_ne hw hinsert (Or.inl hne)
  | removeRoute route id =>
    obtain ⟨report, hremove⟩ := BgpRib.step_removeRoute_ok.mp h
    exact held_removeRoute_of_ne hw hremove (Or.inl hne)

theorem wellFormed_run {rib rib' : BgpRib} {ops : List BgpRib.Op} (hw : WellFormed rib)
    (h : rib.run ops = .ok rib') : WellFormed rib' :=
  Runs.run_invariant WellFormed (fun _ _ _ => wellFormed_step) hw h

/-- A call panics only where asking for the caller's mask does. -/
theorem step_of_get {rib : BgpRib} {op : BgpRib.Op} {masks : RouterMaskMap} {mask : RouterMask}
    (h : rib.routerMaskMap.get op.router = .ok (masks, mask)) :
    ∃ rib', rib.step op = .ok rib' ∧ rib'.routerMaskMap = masks := by
  cases op with
  | registerRouter id =>
    have hget : rib.routerMaskMap.get id = .ok (masks, mask) := h
    exact ⟨_, by rw [BgpRib.step, BgpRib.registerRouter, hget], rfl⟩
  | insertRoute route id =>
    have hget : rib.routerMaskMap.get id = .ok (masks, mask) := h
    simp only [BgpRib.step, BgpRib.insertRoute, hget]
    cases rib.treebitmap.exactMatch route.pfx <;> exact ⟨_, rfl, rfl⟩
  | removeRoute route id =>
    have hget : rib.routerMaskMap.get id = .ok (masks, mask) := h
    simp only [BgpRib.step, BgpRib.removeRoute, hget]
    cases rib.treebitmap.exactMatch route.pfx <;> exact ⟨_, rfl, rfl⟩

/-- A registered router's call succeeds and leaves the masks alone. -/
theorem step_of_registered {rib : BgpRib} {op : BgpRib.Op}
    (h : op.router ∈ rib.routerMaskMap.map) :
    ∃ rib', rib.step op = .ok rib' ∧ rib'.routerMaskMap = rib.routerMaskMap := by
  obtain ⟨mask, hmask⟩ := Finmap.mem_iff.mp h
  exact step_of_get (RouterMaskMap.get_of_lookup hmask)

theorem get_of_step {rib rib' : BgpRib} {op : BgpRib.Op} (h : rib.step op = .ok rib') :
    ∃ mask, rib.routerMaskMap.get op.router = .ok (rib'.routerMaskMap, mask) := by
  rcases hget : rib.routerMaskMap.get op.router with panic | ⟨masks, mask⟩
  · cases op <;> simp [BgpRib.step, BgpRib.registerRouter, BgpRib.insertRoute, BgpRib.removeRoute,
      BgpRib.Op.router, Except.map] at h hget <;> simp [hget] at h
  · obtain ⟨rib'', hstep, rfl⟩ := step_of_get hget
    obtain rfl : rib' = rib'' := Except.ok.inj (h.symm.trans hstep)
    exact ⟨mask, rfl⟩

/-- The routers that a run leaves registered. -/
theorem keys_run {rib rib' : BgpRib} {ops : List BgpRib.Op} (h : rib.run ops = .ok rib') :
    rib'.routerMaskMap.map.keys =
      rib.routerMaskMap.map.keys ∪ (ops.map BgpRib.Op.router).toFinset := by
  induction ops generalizing rib with
  | nil =>
    obtain rfl : rib = rib' := Except.ok.inj h
    simp
  | cons op rest ih =>
    obtain ⟨next, hstep, hrest⟩ := Runs.run_cons_ok.mp h
    obtain ⟨mask, hget⟩ := get_of_step hstep
    rw [ih hrest, RouterMaskMap.keys_get hget, List.map_cons, List.toFinset_cons]
    apply Finset.ext
    intro other
    simp only [Finset.mem_union, Finset.mem_insert]
    tauto

/-- No call panics while all routers, registered or still to come, number at most 64. -/
theorem run_total {rib : BgpRib} {ops : List BgpRib.Op} (hw : WellFormed rib)
    (hids : (rib.routerMaskMap.map.keys ∪ (ops.map BgpRib.Op.router).toFinset).card ≤ 64) :
    ∃ rib', rib.run ops = .ok rib' := by
  refine Runs.run_total (fun s rest => WellFormed s ∧
    (s.routerMaskMap.map.keys ∪ (rest.map BgpRib.Op.router).toFinset).card ≤ 64) ?_ ⟨hw, hids⟩
  intro s op rest hs
  obtain ⟨hs, hcard⟩ := hs
  simp only [List.map_cons, List.toFinset_cons] at hcard
  have hroom : op.router ∈ s.routerMaskMap.map ∨ s.routerMaskMap.map.keys.card < 64 := by
    by_cases hmem : op.router ∈ s.routerMaskMap.map
    · exact Or.inl hmem
    · right
      have hnot : op.router ∉ s.routerMaskMap.map.keys := by rwa [Finmap.mem_keys]
      have hsub : insert op.router s.routerMaskMap.map.keys ⊆ s.routerMaskMap.map.keys ∪
          insert op.router (rest.map BgpRib.Op.router).toFinset := by
        intro x hx
        rcases Finset.mem_insert.mp hx with rfl | hx <;> simp [*]
      have hle := Finset.card_le_card hsub
      rw [Finset.card_insert_of_notMem hnot] at hle
      omega
  obtain ⟨⟨masks, mask⟩, hget⟩ := RouterMaskMap.get_total hs.masks hroom
  obtain ⟨s', hstep, hmasks⟩ := step_of_get hget
  refine ⟨s', hstep, wellFormed_step hs hstep, ?_⟩
  have hkeys : s'.routerMaskMap.map.keys = insert op.router s.routerMaskMap.map.keys := by
    rw [hmasks]
    exact RouterMaskMap.keys_get hget
  rw [hkeys]
  refine (Finset.card_le_card ?_).trans hcard
  intro x hx
  simp only [Finset.mem_union, Finset.mem_insert] at hx ⊢
  tauto

end Steps

end NetfabricBgp.RibInvariants
